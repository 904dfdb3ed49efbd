/-!
# Why a file operation fails

## Main definitions

* `DiskError` — the causes.
* `DiskError.message` — their wording.
-/

namespace WorkspaceEditing

/-- The causes for which an operation on files fails. -/
inductive DiskError where
  | notFound
  | busy
  | alreadyExists
  | notDirectory
  | isDirectory
  | invalidArgument
  | nameTooLong
  | notEmpty
  | tooManyLinks
  /-- The contents of a file that is read as text are not UTF-8. -/
  | notText
  /-- A path holds a NUL byte, which no file name may. -/
  | nulInPath
  deriving DecidableEq, Repr

/-- The wording of a cause, with the number that the system has for it. -/
def DiskError.message : DiskError → String
  | notFound => "No such file or directory (os error 2)"
  | busy => "Device or resource busy (os error 16)"
  | alreadyExists => "File exists (os error 17)"
  | notDirectory => "Not a directory (os error 20)"
  | isDirectory => "Is a directory (os error 21)"
  | invalidArgument => "Invalid argument (os error 22)"
  | nameTooLong => "File name too long (os error 36)"
  | notEmpty => "Directory not empty (os error 39)"
  | tooManyLinks => "Too many levels of symbolic links (os error 40)"
  | notText => "stream did not contain valid UTF-8"
  | nulInPath => "file name contained an unexpected NUL byte"

end WorkspaceEditing
