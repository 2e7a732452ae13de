import PackageLoader.Library

/-!
Patterns of a query. A pattern asks for the package of one file, for the builtin package, or for
the modules at and below a directory. Dots at the end of a directory pattern make no difference.
-/
namespace PackageLoader

/-- What a query asks for. -/
inductive Pattern where
  | file (path : Path)
  | builtin
  | dir (path : Path)
  deriving DecidableEq, Repr

namespace Pattern

/-- The text without slashes at its end. -/
def withoutSlashes (cs : List Char) : List Char :=
  (cs.reverse.dropWhile (· = '/')).reverse

/-- The directory that a pattern names: three dots at the end, and the slashes in front of them,
do not belong to it. -/
def directoryText (raw : List Char) : List Char :=
  if "...".toList.isSuffixOf raw then withoutSlashes (raw.take (raw.length - 3)) else raw

/-- `Pattern::parse`: reads a pattern. Relative paths start at the working directory. -/
def read (raw : String) (workingDir : Path) : Pattern :=
  let cs := raw.toList
  let fileMark := "file=".toList
  if fileMark.isPrefixOf cs then
    .file (workingDir.absolutize ⟨String.ofList (cs.drop fileMark.length)⟩)
  else if raw = builtinPath then .builtin
  else .dir (workingDir.absolutize ⟨String.ofList (directoryText cs)⟩)

end Pattern

end PackageLoader
