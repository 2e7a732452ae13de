import PackageLoader.Proofs.DirectoryWalk
import PackageLoader.Proofs.OverlayOnDisk
import PackageLoader.Proofs.TwoPaths

/-! An overlay in front of two paths of one place. Overlaid paths are told by their components, so two
paths with the same components see the same of an overlay, and a path with a step upwards in it sees
nothing of one whose keys are in normal form. Where both see the same, directories below both paths
list files of the same names, in the same order and with the same contents. -/
namespace PackageLoader.OverlaidAlike
open Disk LinkFreeDisk OverlayOnDisk PathNormalForm Subdirectories TableLaws TwoPaths

/-! ## Keys -/

/-- Every key is in normal form. -/
def Normal (overlay : Overlay) : Prop :=
  ∀ key ∈ overlay.keys, ∃ names, (∀ name ∈ names, IsName name) ∧ key = canonicalPath names

/-- No key starts with the components. -/
def Beside (overlay : Overlay) (cs : List Component) : Prop :=
  ∀ key ∈ overlay.keys, ¬ cs <+: key.components

/-- What is seen of the overlay from both paths is the same. -/
inductive SeenAlike (overlay : Overlay) (p p' : Path) : Prop where
  | same (components : p.components = p'.components)
  | beside (first : Beside overlay p.components) (second : Beside overlay p'.components)

section Keys

variable {overlay : Overlay} {p p' : Path} {below : List String}

/-- A path with a step upwards lies above no key. -/
theorem beside_of_parent (normal : Normal overlay) (upward : .parent ∈ p.components) :
    Beside overlay p.components := by
  intro key member above
  obtain ⟨names, valid, rfl⟩ := normal key member
  have inside := above.subset upward
  rw [canonicalPath_components valid] at inside
  simp at inside

theorem get?_beside (beside : Beside overlay p.components) (valid : ∀ name ∈ below, IsName name) :
    overlay.get? (descend p below) = none := by
  apply Option.eq_none_iff_forall_ne_some.mpr
  intro bytes found
  obtain ⟨key, member, same⟩ := mem_of_findEntry found
  have components : (descend p below).components = key.components :=
    Std.LawfulEqCmp.eq_of_compare same
  rw [descend_components p valid] at components
  exact beside key (List.mem_map_of_mem member) ⟨_, components⟩

theorem get?_alike (seen : SeenAlike overlay p p') (valid : ∀ name ∈ below, IsName name) :
    overlay.get? (descend p below) = overlay.get? (descend p' below) := by
  cases seen with
  | same components =>
    have same : (descend p below).components = (descend p' below).components := by
      rw [descend_components p valid, descend_components p' valid, components]
    refine findEntry_congr ?_ _
    show compare (descend p below).components (descend p' below).components = .eq
    rw [same]
    exact Std.ReflOrd.compare_self
  | beside first second => rw [get?_beside first valid, get?_beside second valid]

/-- Overlaid files of a directory have a name behind its components. -/
theorem mem_entriesOf_components (normal : Normal overlay) {dir file : Path}
    (listed : file ∈ overlay.entriesOf dir) :
    file ∈ overlay.keys ∧ ∃ name, file.components = dir.components ++ [.name name] := by
  obtain ⟨member, inside⟩ := List.mem_filter.mp listed
  refine ⟨member, ?_⟩
  obtain ⟨names, valid, rfl⟩ := normal file member
  rcases List.eq_nil_or_concat' names with rfl | ⟨front, last, rfl⟩
  · cases inside
  · have before : ∀ n ∈ front, IsName n := fun n member => valid n (List.mem_append_left _ member)
    have final := valid last (List.mem_append_right _ (List.mem_singleton_self _))
    rw [canonicalPath_parent? before final, Option.any_some, Path.same, beq_iff_eq] at inside
    refine ⟨last, ?_⟩
    rw [← inside, canonicalPath_components valid, canonicalPath_components before]
    simp

theorem entriesOf_beside (normal : Normal overlay) (beside : Beside overlay p.components)
    (valid : ∀ name ∈ below, IsName name) : overlay.entriesOf (descend p below) = [] := by
  apply List.eq_nil_iff_forall_not_mem.mpr
  intro file listed
  obtain ⟨member, name, components⟩ := mem_entriesOf_components normal listed
  rw [descend_components p valid, List.append_assoc] at components
  exact beside file member ⟨_, components.symm⟩

end Keys

/-! ## Sorting -/

/-- Lists that compare alike, place by place, are sorted alike. -/
theorem sortPaths_alike {R : Path → Path → Prop}
    (compares : ∀ p p' q q', R p p' → R q q' → compare p q = compare p' q') {paths paths' : List Path}
    (alike : List.Forall₂ R paths paths') :
    List.Forall₂ R (Overlay.sortPaths paths) (Overlay.sortPaths paths') := by
  have insert {p p' : Path} (first : R p p') {sorted sorted' : List Path}
      (alike : List.Forall₂ R sorted sorted') :
      List.Forall₂ R (Overlay.insertPath p sorted) (Overlay.insertPath p' sorted') := by
    induction alike with
    | nil => exact .cons first .nil
    | @cons q q' rest rest' head tail ih =>
      rw [Overlay.insertPath, Overlay.insertPath, compares p p' q q' first head]
      split
      · exact .cons first (.cons head tail)
      · exact .cons head ih
  induction alike with
  | nil => exact .nil
  | cons head tail ih => exact insert head ih

/-! ## Listings -/

/-- Files of one name in two directories, which a file system reads alike. -/
structure Siblings (fs : FileSystem) (d d' file file' : Path) : Prop where
  named : ∃ name, file.components = d.components ++ [.name name] ∧
    file'.components = d'.components ++ [.name name]
  contents : fs.contents file = fs.contents file'
  isDir : fs.isDir file = fs.isDir file'

theorem Siblings.compare {fs : FileSystem} {d d' p p' q q' : Path} (first : Siblings fs d d' p p')
    (second : Siblings fs d d' q q') : compare p q = compare p' q' := by
  obtain ⟨a, own, own'⟩ := first.named
  obtain ⟨b, other, other'⟩ := second.named
  show Ord.compare p.components q.components = Ord.compare p'.components q'.components
  rw [own, own', other, other', DirectoryWalk.compare_append, DirectoryWalk.compare_append]

section Listings

variable {disk : Disk} {overlay : Overlay} {p p' : Path} {place below : List String}

/-- The files of a directory on disk. -/
theorem children_alike (linkFree : LinkFree disk) (meet : Meet disk place p p')
    (seen : SeenAlike overlay p p') {entries : Entries}
    (stands : disk.node? (place ++ below) = some (.directory entries)) :
    List.Forall₂ (Siblings (overlay.inFrontOf disk.fileSystem) (descend p below) (descend p' below))
      (entries.map fun e => (descend p below).child e.1)
      (entries.map fun e => (descend p' below).child e.1) := by
  refine List.forall₂_map_left_iff.mpr (List.forall₂_map_right_iff.mpr
    (List.forall₂_same.mpr fun e listed => ?_))
  have there := found_of_mem stands listed
  rw [List.append_assoc] at there
  have present : (disk.node? (place ++ (below ++ [e.1]))).isSome := by simp [there]
  have valid := names_of_stands linkFree present
  have last := valid e.1 (List.mem_append_right _ (List.mem_singleton_self _))
  have contents := contents_alike linkFree meet present
  have overlaid := get?_alike seen valid
  have isDir := isDir_alike linkFree meet valid
  rw [descend_concat, descend_concat] at contents overlaid isDir
  refine ⟨⟨e.1, child_components _ last, child_components _ last⟩, ?_, isDir⟩
  simp only [Overlay.inFrontOf, Disk.fileSystem, overlaid, contents]

theorem listing_directory {dir : Path} {location : List String} {entries : Entries}
    (opens : disk.opened dir = .ok (location, entries)) :
    (overlay.inFrontOf disk.fileSystem).listing dir =
      .ok (Overlay.sortPaths ((entries.map fun e => dir.child e.1) ++ (overlay.entriesOf dir).filter
        fun file => !(entries.map fun e => dir.child e.1).any (·.same file))) := by
  have lists : disk.listing dir = .ok (entries.map fun e => dir.child e.1) := by
    rw [Disk.listing, opens]
    rfl
  simp only [Overlay.inFrontOf, Disk.fileSystem, lists]

/-- Directories below two paths of one place list files of the same names with the same contents, in
the same order. -/
theorem listing_alike (linkFree : LinkFree disk) (normal : Normal overlay)
    (meet : Meet disk place p p') (seen : SeenAlike overlay p p') {entries : Entries}
    (opens : disk.opened (descend p below) = .ok (place ++ below, entries))
    (opens' : disk.opened (descend p' below) = .ok (place ++ below, entries)) :
    ∃ files files',
      (overlay.inFrontOf disk.fileSystem).listing (descend p below) = .ok files ∧
      (overlay.inFrontOf disk.fileSystem).listing (descend p' below) = .ok files' ∧
      List.Forall₂ (Siblings (overlay.inFrontOf disk.fileSystem) (descend p below)
        (descend p' below)) files files' := by
  obtain ⟨-, stands, -⟩ := opened_eq_ok_iff.mp opens
  have present : (disk.node? (place ++ below)).isSome := by simp [stands]
  have valid := names_of_stands linkFree present
  have children := children_alike linkFree meet seen stands
  refine ⟨_, _, listing_directory opens, listing_directory opens', ?_⟩
  refine sortPaths_alike (fun _ _ _ _ => Siblings.compare) (List.rel_append children ?_)
  cases seen with
  | same components =>
    -- Whether an overlaid file is on disk as well is told by components, so both paths say the same.
    have same : (descend p below).components = (descend p' below).components := by
      rw [descend_components p valid, descend_components p' valid, components]
    have overlaid : overlay.entriesOf (descend p below) = overlay.entriesOf (descend p' below) := by
      simp only [Overlay.entriesOf, Path.same, same]
    have spelled : (entries.map fun e => ((descend p below).child e.1).components) =
        entries.map fun e => ((descend p' below).child e.1).components := by
      refine List.map_congr_left fun e listed => ?_
      have last := isName_of_mem linkFree stands listed
      rw [child_components _ last, child_components _ last, same]
    have known (file : Path) :
        (entries.map fun e => (descend p below).child e.1).any (·.same file) =
          (entries.map fun e => (descend p' below).child e.1).any (·.same file) := by
      have told := congrArg (·.any (· == file.components)) spelled
      rw [List.any_map, List.any_map] at told ⊢
      exact told
    simp only [overlaid, known]
    refine List.forall₂_same.mpr fun file member => ⟨?_, rfl, rfl⟩
    obtain ⟨-, name, components⟩ := mem_entriesOf_components normal (List.mem_filter.mp member).1
    exact ⟨name, same ▸ components, components⟩
  | beside first second =>
    rw [entriesOf_beside normal first valid, entriesOf_beside normal second valid]
    exact .nil

end Listings

end PackageLoader.OverlaidAlike
