import PackageLoader.Installation.Environment
import PackageLoader.Query.Load

/-!
Finding the installation. A variable settles the matter. Otherwise a guess is made, by asking the
build tool where a module is and, for the root, by looking upward from the program and the working
directory; guesses that succeed are kept and never made again.
-/
namespace PackageLoader

open Text

/-- What guessing depends on: the disk, the variables of the process, what the build tool prints for
a module if it finds it, and the directories of the program and of the builtin package that comes
with it. -/
structure Host where
  disk : Disk
  processValue? : String → Option String
  moduleOutput? : String → Option Bytes
  programDir? : Option Path
  shippedBuiltinDir : Path

/-- `RootCache`: the guesses that have succeeded. -/
structure Guesses where
  root? : Option Path := none
  builtin? : Option Path := none
  deriving DecidableEq, Repr

/-- A directory that was looked for, and the modules that the build tool was asked about on the way. -/
structure Guess where
  dir? : Option Path
  asked : List String

/-- A result with the guesses kept from then on and the modules that the build tool was asked
about. -/
structure Finding (α : Type u) where
  result : α
  guesses : Guesses
  asked : List String := []

/-- `GNO_MODULE`: the module of the installation. -/
def rootModule : String := "github.com/gnolang/gno"

/-- `GNOPLS_MODULE`: the module that holds the builtin package. -/
def builtinModule : String := "github.com/gnoverse/gnopls"

namespace Host

/-- `go_list_module_dir`: the directory of a module, as the build tool prints it. -/
def moduleDir (host : Host) (module : String) : Guess :=
  let text? := (host.moduleOutput? module).map fun bytes => trimmed (decodeLossy bytes)
  { dir? := (text?.filter (!·.isEmpty)).map .mk, asked := [module] }

/-- `is_gno_root`: whether a directory is the root of an installation, which holds a library. -/
def isRoot (host : Host) (dir : Path) : Bool :=
  host.disk.isDir (LibraryRoots.within dir).packages

/-- The working directory. -/
def workingDir (host : Host) : Path :=
  Disk.canonicalPath host.disk.workingDir

/-- `search_root_from_exe`: the closest root at or above the directory of the program, or else the
working directory. -/
def rootAbove? (host : Host) : Option Path :=
  (host.programDir?.toList ++ [host.workingDir]).findSome? fun start =>
    start.ancestors.find? host.isRoot

/-- A guess at the root. -/
def guessRoot (host : Host) : Guess :=
  let listed := host.moduleDir rootModule
  { listed with dir? := (listed.dir?.filter host.isRoot).or host.rootAbove? }

/-- A guess at the directory of the builtin package. -/
def guessBuiltin (host : Host) : Guess :=
  let listed := host.moduleDir builtinModule
  let dir? := listed.dir?.map fun dir => ((dir.child "pkg").child "gnotypes").child "builtin"
  { listed with dir? := dir?.filter fun dir => host.disk.isFile (dir.child "builtin.gno") }

/-- The value of a variable. -/
def lookup (host : Host) (entries : List String) (key : String) : Option String :=
  lookupEnv entries host.processValue? key

/-- `guess_root_dir`: finds the root of the installation. -/
def findRoot (host : Host) (entries : List String) (guesses : Guesses) :
    Finding (Except ModuleError Path) :=
  match host.lookup entries rootKey, guesses.root? with
  | some value, _ => { result := .ok ⟨value⟩, guesses := guesses }
  | none, some root => { result := .ok root, guesses := guesses }
  | none, none =>
    let guess := host.guessRoot
    match guess.dir? with
    | some root =>
      { result := .ok root, guesses := { guesses with root? := some root }, asked := guess.asked }
    | none => { result := .error .noRoot, guesses := guesses, asked := guess.asked }

/-- `guess_builtin_dir`: finds the directory of the builtin package. -/
def findBuiltin (host : Host) (entries : List String) (guesses : Guesses) :
    Finding (Option Path) :=
  match host.lookup entries builtinKey, guesses.builtin? with
  | some value, _ => { result := some ⟨value⟩, guesses := guesses }
  | none, some dir => { result := some dir, guesses := guesses }
  | none, none =>
    let guess := host.guessBuiltin
    { result := guess.dir?, guesses := { guesses with builtin? := guess.dir? }, asked := guess.asked }

/-- `DriverConfig::from_env`: the settings for a query in the working directory. Without a root
there is no installation, and the builtin package that comes with the program is used if no other is
found. -/
def settings (host : Host) (architecture : String) (entries : List String) (guesses : Guesses) :
    Finding Settings :=
  let root := host.findRoot entries guesses
  let builtin := host.findBuiltin entries root.guesses
  { result :=
      { root? := root.result.toOption
        builtinDir := builtin.result.getD host.shippedBuiltinDir
        workingDir := host.workingDir
        architecture := architecture }
    guesses := builtin.guesses
    asked := root.asked ++ builtin.asked }

end Host

end PackageLoader
