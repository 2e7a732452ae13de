import PackageLoader.CommandLine.Run

/-!
The program. It takes the part of the file system that a run looks at into a disk, lets the run
happen on that disk and writes down what it comes to.
-/
namespace PackageLoader

/-- What the program says about itself. -/
def usage : String :=
  "Package-loader driver for Gno workspaces

Usage: gnopackagesdriver [OPTIONS] [PATTERNS]...

Arguments:
  [PATTERNS]...  Directories (optionally ending in /...), file=<path> or builtin

Options:
  -v, --verbose            Enable debug logging
  -q, --quiet              Only log errors
      --gno-root <DIR>     Gno repository root, overriding GNOROOT
      --builtin-dir <DIR>  Directory holding builtin.gno, overriding GNOBUILTIN
      --no-examples        Do not load the examples tree of the Gno root
  -h, --help               Print help"

/-- Files with other names are never read. -/
def isRead (name : String) : Bool :=
  isSourceFile name || descriptorNames.contains name

/-- The bytes that a run sees of a file. -/
def contentsAt (place name : String) : IO Text.Bytes :=
  if isRead name then return (← IO.FS.readBinFile place).toList else return []

/-- Takes what stands at a place into a disk, with everything below it. A link to a file is taken as
that file; a link to a directory stays a link to where it leads. A directory that cannot be listed and a
file that cannot be read are taken without what they hold and refuse to be read. -/
partial def capture (disk : Disk) (place name : String) : IO Disk := do
  let file := (← IO.currentDir) / place
  match ← file.symlinkMetadata.toBaseIO with
  | .error _ => return disk
  | .ok found =>
    match found.type with
    | .dir =>
      let disk := disk.makeDir ⟨place⟩
      match ← file.readDir.toBaseIO with
      | .error _ => return disk.refuse ⟨place⟩
      | .ok entries =>
        entries.foldlM (fun disk e => capture disk (place ++ "/" ++ e.fileName) e.fileName) disk
    | .file =>
      match ← (contentsAt place name).toBaseIO with
      | .error _ => return (disk.putFile ⟨place⟩ []).refuse ⟨place⟩
      | .ok bytes => return disk.putFile ⟨place⟩ bytes
    | .symlink =>
      match ← (IO.FS.realPath place).toBaseIO with
      | .error _ => return disk
      | .ok target =>
        if ← target.isDir then
          return (disk.makeDir ⟨target.toString⟩).putLink ⟨place⟩ target.toString
        else match ← (contentsAt place name).toBaseIO with
          | .error _ => return (disk.putFile ⟨place⟩ []).refuse ⟨place⟩
          | .ok bytes => return disk.putFile ⟨place⟩ bytes
    | .other => return disk

/-- Takes a directory into a disk. If it is a link, the directory that it leads to is taken too. -/
def captureDir (disk : Disk) (dir : Path) : IO Disk := do
  match ← (IO.FS.realPath dir.text).toBaseIO with
  | .error _ => return disk
  | .ok target => capture (← capture disk dir.text "") target.toString ""

/-- The directories above the given ones that hold a library are marked on a disk. -/
def markRoots (disk : Disk) (starts : List Path) : IO Disk :=
  (starts.flatMap Path.ancestors).foldlM (fun disk dir => do
    let library := (LibraryRoots.within dir).packages
    if ← ((← IO.currentDir) / library.text).isDir then return disk.makeDir library
    else return disk) disk

/-- The directories that a query looks into. -/
def placesOf (settings : Settings) (patterns : List String) : List Path :=
  let ofPattern (raw : String) : List Path :=
    match Pattern.read raw settings.workingDir with
    | .file file => [file.parent?.getD settings.workingDir]
    | .dir dir => [dir]
    | .builtin => []
  let ofRoot (root : Path) : List Path :=
    let library := LibraryRoots.within root
    [library.packages, library.tests, root.child "examples"]
  patterns.flatMap ofPattern ++ settings.root?.toList.flatMap ofRoot

/-- The machine that the program runs on, with nothing on its disk but where roots may be. -/
def thisHost : IO Host := do
  let here := Path.mk (← IO.currentDir).toString
  let programDir? := (← IO.appPath).parent.map fun dir => Path.mk dir.toString
  let disk ← markRoots (Disk.empty.makeDir here) (here :: programDir?.toList)
  let values ← [rootKey, builtinKey].filterMapM fun key => do
    return (← IO.getEnv key).map (key, ·)
  return { disk := disk.changeDir here
           processValue? := fun key => values.lookup key
           moduleOutput? := fun _ => none
           programDir? := programDir?
           shippedBuiltinDir := (programDir?.getD here).child "builtin" }

/-- The machine with everything on its disk that a query looks at. -/
def hostFor (host : Host) (architecture : String) (o : Options) (input : Text.Bytes) : IO Host := do
  match Request.read input with
  | .error _ => return host
  | .ok request =>
    let settings := (host.settings architecture (o.environment request) {}).result
    let disk ← (placesOf settings o.patterns).foldlM captureDir host.disk
    return { host with disk := disk }

/-- Runs the program on this machine. -/
def runHere (arguments : List String) : IO Outcome := do
  match Options.read arguments with
  | .error why => return .refused why
  | .ok o =>
    let input := (← (← IO.getStdin).readBinToEnd).toList
    let architecture := (← IO.getEnv "GOARCH").getD "amd64"
    let host ← hostFor (← thisHost) architecture o input
    return run host architecture arguments input

end PackageLoader

open PackageLoader in
/-- Writes the response or what went wrong. -/
def main (arguments : List String) : IO UInt32 := do
  let outcome ← runHere arguments
  match outcome with
  | .response r => IO.print r.text
  | .refused .help => IO.println usage
  | .refused .usage => IO.eprintln usage
  | _ => IO.eprintln (outcome.errorLine?.getD "")
  return UInt32.ofNat outcome.exitCode
