import PackageLoader.Package.Link
import PackageLoader.Query.Discovery
import PackageLoader.Response.Basic

/-!
Answering a query. Packages are discovered in the library, then under the patterns in order, then
among the examples of the installation; once all are known they are linked.
-/
namespace PackageLoader

/-- `DriverConfig`: where the installation is, how patterns are read, and the architecture that
responses name. Without an installation there is neither a library nor examples. -/
structure Settings where
  root? : Option Path := none
  builtinDir : Path
  withExamples : Bool := true
  workingDir : Path
  architecture : String
  deriving DecidableEq, Repr

namespace PackageGraph

/-- Loads what a pattern asks for. -/
def loadPattern (disk : Disk) (fs : FileSystem) (settings : Settings) (g : PackageGraph)
    (raw : String) : Except LoadError PackageGraph :=
  match Pattern.read raw settings.workingDir with
  | .builtin => .ok (g.addBuiltin settings.builtinDir)
  | .dir dir => g.walk disk fs .directory raw dir
  | .file file => g.walk disk fs .file raw (file.parent?.getD settings.workingDir)

/-- Loads the library of the installation, if it has one. -/
def loadLibrary (disk : Disk) (fs : FileSystem) (settings : Settings) (g : PackageGraph) :
    PackageGraph :=
  match settings.root?.map LibraryRoots.within with
  | some roots => if fs.isDir roots.packages then (g.addLibrary disk fs roots).1 else g
  | none => g

/-- Loads the examples of the installation, if it has some and they are wanted. -/
def loadExamples (disk : Disk) (fs : FileSystem) (settings : Settings) (g : PackageGraph) :
    Except LoadError PackageGraph :=
  match settings.root?.map (·.child "examples") with
  | some dir =>
    if settings.withExamples && disk.isDir dir then g.walk disk fs .examples "examples" dir
    else .ok g
  | none => .ok g

end PackageGraph

/-- Discovers the packages for a query. -/
def discover (disk : Disk) (settings : Settings) (overlay : Overlay) (patterns : List String) :
    Except LoadError PackageGraph := do
  let fs := overlay.inFrontOf disk.fileSystem
  let g := PackageGraph.loadLibrary disk fs settings {}
  let g ← patterns.foldlM (PackageGraph.loadPattern disk fs settings) g
  g.loadExamples disk fs settings

/-- `resolve`: answers a query. -/
def load (disk : Disk) (settings : Settings) (overlay : Overlay) (patterns : List String) :
    Except LoadError Response := do
  let g ← discover disk settings overlay patterns
  return { packages := linkPackages g.parts.1, roots := g.parts.2,
           architecture := settings.architecture }

end PackageLoader
