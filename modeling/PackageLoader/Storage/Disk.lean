import PackageLoader.Storage.Error
import PackageLoader.Storage.Tree

/-!
The disk: a directory tree with a working directory. A path is resolved name by name from the root
or the working directory; symbolic links on the way are always followed, one at the end only if
the call asks for it, and forty links are the most that one call follows. Walks over the
directories below a path are those of `walkdir` with entries sorted by file name.
-/
namespace PackageLoader

open Text

/-- A directory tree and where relative paths start. What stands at some locations refuses to be read:
a directory there cannot be listed, and a file there has no contents to give. Every directory lets paths
through. -/
structure Disk where
  root : Entries
  ordered : (Node.directory root).Ordered
  workingDir : List String
  refuses : List String → Bool := fun _ => false

namespace Disk

/-- The disk without entries. -/
def empty : Disk :=
  { root := [], ordered := .directory .nil (by simp), workingDir := [] }

instance : Inhabited Disk := ⟨empty⟩

/-- What stands at a location, given by the names that lead to it from the root. -/
def node? (disk : Disk) (location : List String) : Option Node :=
  (Node.directory disk.root).at? location

/-! ## Resolving paths -/

/-- The steps of a path. A separator at the end asks for a directory, as a dot behind it would. -/
def walkSteps (text : String) : List String :=
  let names := (Path.mk text).segments.map (·.1)
  if text.toList.getLast? = some '/' then names ++ ["."] else names

/-- How a path is resolved: whether a link at the end is followed, and whether names that do not
exist are taken as if they were there. -/
structure Resolution where
  followLast : Bool := true
  mayMiss : Bool := false

/-- The longest name of an entry, in bytes. -/
def maxNameLength : Nat := 255

/-- The length that paths stay below, in bytes. -/
def maxPathLength : Nat := 4096

/-- The number of links that one call follows. -/
def maxLinks : Nat := 40

/-- Walks from a location along the given steps. A link on the way is handed to `follow`, with where
it stands and the steps behind it. -/
def walkAlong (disk : Disk) (how : Resolution)
    (follow : String → List String → List String → Except StorageError (List String))
    (here : List String) : List String → Except StorageError (List String)
  | [] => if how.mayMiss || (disk.node? here).isSome then .ok here else .error .notFound
  | step :: rest =>
    match disk.node? here with
    | some (.directory entries) =>
      if step = "." then disk.walkAlong how follow here rest
      else if step = ".." then disk.walkAlong how follow here.dropLast rest
      else if step.utf8ByteSize > maxNameLength then .error .nameTooLong
      else match findEntry step entries with
        | some (.link target) =>
          if rest.isEmpty && !how.followLast then .ok (here ++ [step]) else follow target here rest
        | some _ => disk.walkAlong how follow (here ++ [step]) rest
        | none =>
          if how.mayMiss then disk.walkAlong how follow (here ++ [step]) rest else .error .notFound
    | some _ => .error .notADirectory
    | none =>
      if !how.mayMiss then .error .notFound
      else if step = "." then disk.walkAlong how follow here rest
      else if step = ".." then disk.walkAlong how follow here.dropLast rest
      else disk.walkAlong how follow (here ++ [step]) rest

/-- Walks from a location along the given steps, through at most the given number of links. -/
def walk (disk : Disk) (how : Resolution) : Nat → List String → List String →
    Except StorageError (List String)
  | 0 => disk.walkAlong how fun _ _ _ => .error .linkLoop
  | links + 1 => disk.walkAlong how fun target here rest =>
    if target.isEmpty then .error .notFound
    else disk.walk how links (if (Path.mk target).isAbsolute then [] else here)
      (walkSteps target ++ rest)

/-- The location that a path leads to. -/
def resolve (disk : Disk) (how : Resolution) (path : Path) : Except StorageError (List String) :=
  if path.text.toList.contains '\x00' then .error .nulInName
  else if path.text.isEmpty then .error .notFound
  else if path.text.utf8ByteSize ≥ maxPathLength then .error .nameTooLong
  else disk.walk how maxLinks (if path.isAbsolute then [] else disk.workingDir)
    (walkSteps path.text)

/-- The node that a path leads to. -/
def stat (disk : Disk) (how : Resolution) (path : Path) : Except StorageError Node := do
  let location ← disk.resolve how path
  match disk.node? location with
  | some node => .ok node
  | none => .error .notFound

/-- The path that spells a location from the root. -/
def canonicalPath (location : List String) : Path :=
  .ofComponents (.root :: location.map .name)

/-! ## Reading -/

/-- The bytes of a file. -/
def contents (disk : Disk) (path : Path) : Except StorageError Bytes := do
  let location ← disk.resolve {} path
  match disk.node? location with
  | none | some (.link _) => .error .notFound
  | some node =>
    if disk.refuses location then .error .permissionDenied
    else match node with
      | .file bytes => .ok bytes
      | _ => .error .isADirectory

/-- Opens a directory: where it stands and what its entries are. -/
def opened (disk : Disk) (path : Path) : Except StorageError (List String × Entries) := do
  let location ← disk.resolve {} path
  match disk.node? location with
  | none => .error .notFound
  | some (.directory entries) =>
    if disk.refuses location then .error .permissionDenied else .ok (location, entries)
  | some _ => .error .notADirectory

/-- The paths of the entries of a directory, by ascending name. -/
def listing (disk : Disk) (path : Path) : Except StorageError (List Path) := do
  let (_, entries) ← disk.opened path
  return entries.map fun e => path.child e.1

/-- Whether a path leads to anything. -/
def exists? (disk : Disk) (path : Path) : Bool :=
  (disk.stat {} path).isOk

/-- Whether a path leads to a directory. -/
def isDir (disk : Disk) (path : Path) : Bool :=
  match disk.stat {} path with
  | .ok (.directory _) => true
  | _ => false

/-- Whether a path leads to a file. -/
def isFile (disk : Disk) (path : Path) : Bool :=
  match disk.stat {} path with
  | .ok (.file _) => true
  | _ => false

/-- The directories properly below a directory, each before those that it holds, by ascending name.
A link as the starting point is followed, and no other link is. Below a directory that refuses to be
listed the walk goes no further. -/
def directoriesBelow (disk : Disk) (path : Path) : List Path :=
  match disk.opened path with
  | .ok (location, entries) => Node.directoriesIn disk.refuses location path entries
  | .error _ => []

/-- The starting point, unless it is a link, and the directories properly below it. -/
def directories (disk : Disk) (path : Path) : List Path :=
  match disk.stat { followLast := false } path with
  | .ok (.directory _) => path :: disk.directoriesBelow path
  | .ok (.link _) => disk.directoriesBelow path
  | _ => []

/-! ## Changing -/

theorem ordered_entries_alterAt {disk : Disk} {change : Option Node → Option Node}
    (keeps : ∀ before after, (∀ node, before = some node → node.Ordered) →
      change before = some after → after.Ordered)
    (name : String) (rest : List String) :
    (Node.directory (alterEntry name (Node.alterAt change rest) disk.root)).Ordered :=
  have start : ∀ node, some (Node.directory disk.root) = some node → node.Ordered :=
    fun node same => by cases same; exact disk.ordered
  Node.ordered_alterAt keeps start (show Node.alterAt change (name :: rest) _ = some _ from rfl)

/-- Changes what stands at a location below the root. -/
def alter (disk : Disk) (location : List String) (change : Option Node → Option Node)
    (keeps : ∀ before after, (∀ node, before = some node → node.Ordered) →
      change before = some after → after.Ordered) : Disk :=
  match location with
  | [] => disk
  | name :: rest =>
    { disk with
      root := alterEntry name (Node.alterAt change rest) disk.root
      ordered := ordered_entries_alterAt keeps name rest }

/-- Puts a file at a path, with the directories that lead to it. A link at the path is followed. The
file can be read, even if what stood there could not. -/
def putFile (disk : Disk) (path : Path) (bytes : Bytes) : Disk :=
  match disk.resolve { mayMiss := true } path with
  | .ok location =>
    let written := disk.alter location (fun _ => some (.file bytes)) fun _ _ _ made => by
      cases made
      exact .file bytes
    { written with refuses := fun other => other != location && disk.refuses other }
  | .error _ => disk

/-- Puts a link at a path, with the directories that lead to it. -/
def putLink (disk : Disk) (path : Path) (target : String) : Disk :=
  match disk.resolve { followLast := false, mayMiss := true } path with
  | .ok location =>
    disk.alter location (fun _ => some (.link target)) fun _ _ _ made => by
      cases made
      exact .link target
  | .error _ => disk

/-- Makes a directory at a path and those that lead to it, unless they are there. -/
def makeDir (disk : Disk) (path : Path) : Disk :=
  match disk.resolve { mayMiss := true } path with
  | .ok location =>
    disk.alter location (fun before => some (before.getD (.directory []))) fun before _ held made => by
      cases made
      cases before with
      | none => exact .directory .nil (by simp)
      | some node => exact held node rfl
  | .error _ => disk

/-- Removes what stands at a path, and with it what was refused there. A link is removed and not
followed. -/
def remove (disk : Disk) (path : Path) : Disk :=
  match disk.resolve { followLast := false } path with
  | .ok location =>
    let without := disk.alter location (fun _ => none) fun _ _ _ made => by cases made
    { without with refuses := fun other => !location.isPrefixOf other && disk.refuses other }
  | .error _ => disk

/-- Makes what a path leads to refuse to be read. -/
def refuse (disk : Disk) (path : Path) : Disk :=
  match disk.resolve {} path with
  | .ok location => { disk with refuses := fun other => other == location || disk.refuses other }
  | .error _ => disk

/-- Makes the directory that a path leads to the working directory. -/
def changeDir (disk : Disk) (path : Path) : Disk :=
  match disk.resolve {} path with
  | .ok location => if disk.isDir path then { disk with workingDir := location } else disk
  | .error _ => disk

end Disk

end PackageLoader
