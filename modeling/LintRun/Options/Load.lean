import LintRun.Files.OsError
import LintRun.Options.Decode
import LintRun.Toml.Reader

/-! Options from the text of an options file, and the errors that a file can have. -/

namespace LintRun

/-- What makes options unusable although each value is fit for its place. -/
inductive OptionsDefect where
  | emptyMarker
  | emptyCommand
  deriving Repr, DecidableEq

def OptionsDefect.message : OptionsDefect → String
  | .emptyMarker => "ignore markers must not be empty"
  | .emptyCommand => "linter command must not be empty"

/-- Why a text gives no options: it is no TOML, or a value is unfit. -/
inductive OptionsTextError where
  | malformed
  | unfit (cause : Options.DecodeError)
  deriving Repr, DecidableEq

/-- The mark that stands for where and why a document is malformed. -/
def OptionsTextError.mark : String := "<toml>"

def OptionsTextError.message : OptionsTextError → String
  | .malformed => mark
  | .unfit cause =>
    match cause.message? with
    | some text => mark ++ " " ++ text
    | none => mark

inductive ConfigError (π : Type := Path) where
  | notFound (path : π)
  | io (path : π) (cause : OsError)
  | parse (path : π) (cause : OptionsTextError)
  | invalid (path : π) (cause : OptionsDefect)
  deriving Repr, DecidableEq

/-- What a user reads of an options file that cannot be used. -/
def ConfigError.message {π : Type} [PathLike π] : ConfigError π → String
  | .notFound path => s!"Options file not found: {PathLike.display path}"
  | .io path cause => s!"Failed to read options file '{PathLike.display path}': {cause.message}"
  | .parse path cause => s!"Failed to parse options file '{PathLike.display path}': {cause.message}"
  | .invalid path cause => s!"Invalid options file '{PathLike.display path}': {cause.message}"

namespace Options

def defect? (o : Options) : Option OptionsDefect :=
  if o.markers.start.isEmpty || o.markers.stop.isEmpty then some .emptyMarker
  else if o.linter.command = some [] then some .emptyCommand
  else none

/-- The options of a document that stands at a path. -/
def usable {π : Type} (path : π) (document : Toml.Fields) : Except (ConfigError π) Options :=
  match ofDocument document with
  | .error cause => .error (.parse path (.unfit cause))
  | .ok o =>
    match o.defect? with
    | some cause => .error (.invalid path cause)
    | none => .ok o

/-- The options of a text. The path is that of its file and only tells where errors are. -/
def parse {π : Type} (path : π) (text : String) : Except (ConfigError π) Options :=
  match Toml.read text with
  | none => .error (.parse path .malformed)
  | some document => usable path document

end Options

end LintRun
