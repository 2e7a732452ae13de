import PackageLoader.Package.Graph
import PackageLoader.Package.Resolution
import PackageLoader.Storage.Disk

/-!
Library packages. Every directory below the library root that holds source files is a package whose
path is its place below that root. A second tree holds files for tests: each takes the place of the
file with its name, or joins the others. The builtin package is a single file that is never read.
-/
namespace PackageLoader

/-- `BUILTIN`: the path of the builtin package, which is also its name. -/
def builtinPath : String := "builtin"

/-- `builtin_package`: the builtin package in a directory. -/
def builtinPackage (dir : Path) : Package :=
  { Package.new builtinPath .builtin with name := builtinPath }.pushFile (dir.child "builtin.gno")

/-- Where an installation keeps its library. -/
structure LibraryRoots where
  packages : Path
  tests : Path
  deriving DecidableEq, Repr

/-- `LibraryRoots::new`: the library of the installation at a root. -/
def LibraryRoots.within (root : Path) : LibraryRoots :=
  let home := root.child "gnovm"
  ⟨home.child "stdlibs", (home.child "tests").child "stdlibs"⟩

/-- `library_path`: the package path of a directory below the library root. -/
def libraryPath? (root dir : Path) : Option String :=
  (dir.below? root).map fun steps => "/".intercalate (steps.map (·.text))

namespace Package

/-- Adds a file for tests: in place of the first file with its name, or behind all others. -/
def addTestFile (p : Package) (file : Path) : Package :=
  match p.files.findIdx? fun known => known.fileName? = file.fileName? with
  | some index => p.replaceFile index file
  | none => p.pushFile file

/-- `apply_test_overrides`: adds the source files of a directory for tests. One that cannot be
listed adds nothing. -/
def addTestFiles (p : Package) (fs : FileSystem) (dir : Path) : Package :=
  if fs.isDir dir then
    match fs.packageFiles dir with
    | .ok files => files.foldl addTestFile p
    | .error _ => p
  else p

end Package

namespace FileSystem

/-- `read_library`: the library package in a directory, if there are source files in it. Its
external tests are left out. -/
def libraryPackage? (fs : FileSystem) (roots : LibraryRoots) (dir : Path) : Option Package :=
  match libraryPath? roots.packages dir, fs.packageFiles dir with
  | some path, .ok (file :: files) =>
    let listed := (Package.new path .library).pushFiles (file :: files)
    some ((listed.addTestFiles fs (roots.tests.child path)).resolveWithTests fs).1
  | _, _ => none

end FileSystem

/-- The packages of a library, in the order of their directories. -/
def libraryPackages (disk : Disk) (fs : FileSystem) (roots : LibraryRoots) : List Package :=
  (disk.directoriesBelow roots.packages).filterMap (fs.libraryPackage? roots)

namespace PackageGraph

/-- Adds packages one after the other and counts those that were not turned away. -/
def insertAll (g : PackageGraph) (packages : List Package) : PackageGraph × Nat :=
  packages.foldl (fun (g, added) p =>
    match g.insert p with
    | (g, some _) => (g, added + 1)
    | (g, none) => (g, added)) (g, 0)

/-- `inject_stdlibs`: adds the packages of a library and counts them. None of them answers the
query. -/
def addLibrary (g : PackageGraph) (disk : Disk) (fs : FileSystem) (roots : LibraryRoots) :
    PackageGraph × Nat :=
  g.insertAll (libraryPackages disk fs roots)

end PackageGraph

end PackageLoader
