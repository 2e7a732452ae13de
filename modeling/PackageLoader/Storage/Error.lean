/-!
Why a file system call fails, and how each failure is worded.
-/
namespace PackageLoader

/-- A failed file system call. -/
inductive StorageError where
  | notFound
  | notADirectory
  | isADirectory
  | linkLoop
  | nameTooLong
  | permissionDenied
  | nulInName
  | notUtf8
  deriving DecidableEq, Repr

/-- The wording of a failure; failures that the operating system reports carry its number. -/
def StorageError.message : StorageError → String
  | notFound => "No such file or directory (os error 2)"
  | notADirectory => "Not a directory (os error 20)"
  | isADirectory => "Is a directory (os error 21)"
  | linkLoop => "Too many levels of symbolic links (os error 40)"
  | nameTooLong => "File name too long (os error 36)"
  | permissionDenied => "Permission denied (os error 13)"
  | nulInName => "file name contained an unexpected NUL byte"
  | notUtf8 => "stream did not contain valid UTF-8"

end PackageLoader
