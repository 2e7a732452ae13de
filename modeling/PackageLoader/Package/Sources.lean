import PackageLoader.Package.Basic
import PackageLoader.Source.File
import PackageLoader.Storage.FileSystem

/-!
The source files of a package directory: which names are source files, how a directory is listed
and how a file is read.
-/
namespace PackageLoader

/-- `is_source_file`: a source file ends in `.gno`, unless it is a file test, which is a program of
its own. -/
def isSourceFile (name : String) : Bool :=
  ".gno".toList.isSuffixOf name.toList && !"_filetest.gno".toList.isSuffixOf name.toList

/-- `is_test_file`: a test file ends in `_test.gno`. -/
def isTestFile (name : String) : Bool :=
  "_test.gno".toList.isSuffixOf name.toList

namespace FileSystem

/-- `SourceReader::package_files`: the source files directly inside a directory, as the directory
lists them. -/
def packageFiles (fs : FileSystem) (dir : Path) : Except StorageError (List Path) :=
  (fs.listing dir).map fun entries =>
    entries.filter fun file => file.fileName?.any isSourceFile && !fs.isDir file

/-- `SourceReader::read_source`: reads a source file. A failure becomes an error at the first line
of the file. -/
def readSource (fs : FileSystem) (path : Path) : Except PackageError SourceFile :=
  match fs.contents path with
  | .ok bytes => .ok (.ofBytes path bytes)
  | .error e => .error ⟨path.text ++ ":1", e.message, .parsing⟩

end FileSystem

end PackageLoader
