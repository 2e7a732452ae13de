import PackageLoader.Descriptor.Locate
import PackageLoader.Query.Pattern

/-!
Discovery of modules. Every directory with a descriptor offers a package and, if it has external
tests, a package of those; the offer is turned down if its path is taken. A descriptor that cannot
be read is fatal only where a file was asked for.
-/
namespace PackageLoader

open Text

/-- `DriverError`: why a query fails as a whole. -/
inductive LoadError where
  | pattern (raw : String) (cause : ModuleError)
  | descriptor (dir : Path) (cause : ModuleError)
  deriving DecidableEq, Repr

namespace LoadError

/-- What went wrong below. -/
def cause : LoadError → ModuleError
  | pattern _ cause => cause
  | descriptor _ cause => cause

/-- The wording of a failure. -/
def message : LoadError → String
  | pattern raw cause => "pattern " ++ quoted raw ++ ": " ++ cause.message
  | descriptor dir cause => "module descriptor in " ++ dir.text ++ ": " ++ cause.message

end LoadError

/-- `Walk`: why a tree of modules is walked. -/
inductive Purpose where
  | directory
  | file
  | examples
  deriving DecidableEq, Repr

namespace FileSystem

/-- The package of a module directory before its sources are read. A directory without source files
has none; one that cannot be listed has a package with nothing but the failure. -/
def listedPackage? (fs : FileSystem) (dir descriptorFile : Path) (d : Descriptor) :
    Option Package :=
  let base : Package :=
    { Package.new d.module .workspace with
      otherFiles := [descriptorFile]
      module? := some ⟨d.module, dir, descriptorFile⟩ }
  match fs.packageFiles dir with
  | .ok [] => none
  | .ok files => some (base.pushFiles files)
  | .error e =>
    some { base with errors := [⟨"", "reading " ++ dir.text ++ ": " ++ e.message, .listing⟩] }

/-- What a module directory offers: its package, and behind it the package of its external tests if
that has any files. -/
def modulePackages (fs : FileSystem) (dir descriptorFile : Path) (d : Descriptor) : List Package :=
  match fs.listedPackage? dir descriptorFile d with
  | none => []
  | some listed =>
    let (base, tests) := listed.resolveWithTests fs
    if tests.hasFiles then [base, tests] else [base]

end FileSystem

namespace PackageGraph

/-- Adds a package and, if it is new and wanted, marks it as answering the query. -/
def insertFor (g : PackageGraph) (answers : Bool) (p : Package) : PackageGraph :=
  match g.insert p with
  | (g, some id) => if answers then g.addRoot id else g
  | (g, none) => g

/-- Adds the packages of a module unless its path is taken. -/
def addModule (g : PackageGraph) (fs : FileSystem) (answers : Bool) (dir descriptorFile : Path)
    (d : Descriptor) : PackageGraph :=
  if g.containsPath d.module then g
  else (fs.modulePackages dir descriptorFile d).foldl (·.insertFor answers) g

/-- `Discovery::load_module`: loads the module in a directory. -/
def loadModule (disk : Disk) (fs : FileSystem) (purpose : Purpose) (g : PackageGraph) (dir : Path) :
    Except LoadError PackageGraph :=
  match disk.moduleOf dir with
  | .ok (file, d) => .ok (g.addModule fs (purpose ≠ .examples) dir file d)
  | .error cause => if purpose = .file then .error (.descriptor dir cause) else .ok g

/-- `Discovery::walk`: loads every module at and below a directory, for the given pattern. Examples
that cannot be listed are passed over. -/
def walk (disk : Disk) (fs : FileSystem) (purpose : Purpose) (raw : String) (g : PackageGraph)
    (dir : Path) : Except LoadError PackageGraph :=
  match disk.moduleDirs dir with
  | .ok dirs => dirs.foldlM (loadModule disk fs purpose) g
  | .error cause => if purpose = .examples then .ok g else .error (.pattern raw cause)

/-- `Discovery::add_builtin`: makes the builtin package answer the query. A package that took its
path before answers in its place. -/
def addBuiltin (g : PackageGraph) (dir : Path) : PackageGraph :=
  match g.insert (builtinPackage dir) with
  | (g, some id) => g.addRoot id
  | (g, none) =>
    match g.lookup builtinPath with
    | some id => g.addRoot id
    | none => g

end PackageGraph

end PackageLoader
