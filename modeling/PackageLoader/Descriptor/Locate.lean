import PackageLoader.Descriptor.Directives
import PackageLoader.Descriptor.Fields
import PackageLoader.Storage.Disk

/-!
Finding and reading descriptors on disk. A directory holds a module if it holds a file with one of
the two descriptor names, of which `gnomod.toml` comes first.
-/
namespace PackageLoader

open Text

/-- `DESCRIPTOR_FILES`: the names of descriptors, the preferred one first. -/
def descriptorNames : List String :=
  ["gnomod.toml", "gno.mod"]

namespace Disk

/-- `descriptor_in`: the descriptor of a directory. -/
def descriptorIn (disk : Disk) (dir : Path) : Option Path :=
  (descriptorNames.map dir.child).find? disk.isFile

/-- `find_module_dirs`: the directories at and below a root that hold a module, each before those
below it. -/
def moduleDirs (disk : Disk) (root : Path) : Except ModuleError (List Path) :=
  match disk.listing root with
  | .error cause => .error (.unlistable root cause)
  | .ok _ => .ok ((disk.directories root).filter fun dir => (disk.descriptorIn dir).isSome)

/-- `ModFile::parse_file`: reads a descriptor. Its format is told by the extension of its name. -/
def readDescriptor (disk : Disk) (file : Path) : Except ModuleError Descriptor :=
  if !disk.exists? file then .error (.noDescriptor file)
  else match disk.contents file with
    | .error cause => .error (.unreadable file cause)
    | .ok bytes =>
      match decodeUtf8? bytes with
      | none => .error (.unreadable file .notUtf8)
      | some text =>
        let read := if file.extension? = some "toml" then readFields text else readDirectives text
        read.mapError (.refused file)

/-- `ModFile::parse_dir`: finds and reads the descriptor of a directory. -/
def moduleOf (disk : Disk) (dir : Path) : Except ModuleError (Path × Descriptor) :=
  match disk.descriptorIn dir with
  | none => .error (.noDescriptor dir)
  | some file => (disk.readDescriptor file).map (file, ·)

end Disk

end PackageLoader
