import PackageLoader.Storage.Disk

/-!
File systems as package loading sees them, and overlays of unsaved contents. An overlaid path is
read from the overlay alone and is listed in its parent directory; what is a directory is decided
below the overlay.
-/
namespace PackageLoader

open Text

/-- The calls that package loading makes. -/
structure FileSystem where
  contents : Path → Except StorageError Bytes
  listing : Path → Except StorageError (List Path)
  isDir : Path → Bool
  isFile : Path → Bool

/-- `RealFs`: the disk as a file system. -/
def Disk.fileSystem (disk : Disk) : FileSystem where
  contents := disk.contents
  listing := disk.listing
  isDir := disk.isDir
  isFile := disk.isFile

/-- Contents by path that stand in front of a file system. -/
abbrev Overlay := Table Path Bytes

namespace Overlay

/-- The overlaid paths directly inside a directory, in order. -/
def entriesOf (overlay : Overlay) (dir : Path) : List Path :=
  overlay.keys.filter fun file => file.parent?.any (·.same dir)

/-- Puts a path in front of the first one that does not sort before it. -/
def insertPath (p : Path) : List Path → List Path
  | [] => [p]
  | q :: rest => if (compare p q).isLE then p :: q :: rest else q :: insertPath p rest

/-- Paths by ascending components; those that compare equal keep their order. -/
def sortPaths (paths : List Path) : List Path :=
  paths.foldr insertPath []

/-- `OverlayFs`: the file system with the overlay in front. A directory that is missing below is
listed all the same if it holds overlaid files. -/
def inFrontOf (overlay : Overlay) (base : FileSystem) : FileSystem where
  contents path :=
    match overlay.get? path with
    | some bytes => .ok bytes
    | none => base.contents path
  listing path :=
    let overlaid := overlay.entriesOf path
    match base.listing path with
    | .ok entries =>
      .ok (sortPaths (entries ++ overlaid.filter fun file => !entries.any (·.same file)))
    | .error .notFound => if overlaid.isEmpty then .error .notFound else .ok overlaid
    | .error e => .error e
  isDir := base.isDir
  isFile path := overlay.contains path || base.isFile path

end Overlay

end PackageLoader
