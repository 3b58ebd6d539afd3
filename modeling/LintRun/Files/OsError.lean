/-! The ways in which the operating system refuses an operation on files or commands. -/

namespace LintRun

/-- Why an operation failed. Most causes have a number; `other` is a cause with a text of its
    own. -/
inductive OsError where
  | notFound
  | permissionDenied
  | fileExists
  | notADirectory
  | isADirectory
  | nameTooLong
  | argumentListTooLong
  | badFormat
  | tooManyLinks
  | nulInPath
  | invalidText
  | other (text : String)
  deriving Repr, DecidableEq, Inhabited

namespace OsError

def message : OsError → String
  | .notFound => "No such file or directory (os error 2)"
  | .argumentListTooLong => "Argument list too long (os error 7)"
  | .badFormat => "Exec format error (os error 8)"
  | .permissionDenied => "Permission denied (os error 13)"
  | .fileExists => "File exists (os error 17)"
  | .notADirectory => "Not a directory (os error 20)"
  | .isADirectory => "Is a directory (os error 21)"
  | .nameTooLong => "File name too long (os error 36)"
  | .tooManyLinks => "Too many levels of symbolic links (os error 40)"
  | .nulInPath => "file name contained an unexpected NUL byte"
  | .invalidText => "stream did not contain valid UTF-8"
  | .other text => text

end OsError

end LintRun
