import Mathlib.Data.List.Pairwise
import PackageLoader.Proofs.OverlayOnDisk
import PackageLoader.Proofs.PathParents
import PackageLoader.Proofs.TableListing

/-! What an overlay lists in front of a file system of whatever kind. The paths of both are sorted
stably, so those sorted before can be sorted again together with others, and an overlaid path is only
added where the directory lists no spelling of it. -/
namespace PackageLoader.OverlayListings
open OverlayOnDisk PathParents PathSpellings TableLaws

/-! ## Sorting -/

/-- Each path comes before those behind it, and none compares equal to another. -/
def Ascending (paths : List Path) : Prop :=
  paths.Pairwise fun p q => compare p q = .lt

theorem compare_eq_iff {p q : Path} : compare p q = .eq ↔ p.components = q.components := by
  show compare p.components q.components = .eq ↔ _
  exact Std.LawfulEqCmp.compare_eq_iff_eq

theorem compare_congr {p p' q q' : Path} (first : p.components = p'.components)
    (second : q.components = q'.components) : compare p q = compare p' q' := by
  show compare p.components q.components = compare p'.components q'.components
  rw [first, second]

theorem Ascending.apart {paths : List Path} (ascending : Ascending paths) :
    paths.Pairwise fun p q => p.components ≠ q.components := by
  refine ascending.imp fun {p q} before same => ?_
  rw [compare_eq_iff.mpr same] at before
  cases before

/-- Listed paths of the same components are one. -/
theorem Ascending.unique {paths : List Path} (ascending : Ascending paths) {a b : Path}
    (first : a ∈ paths) (second : b ∈ paths) (same : a.components = b.components) : a = b := by
  by_contra other
  have symmetric : Std.Symm fun a b : Path => a.components ≠ b.components :=
    ⟨fun a b differ same => differ same.symm⟩
  exact ascending.apart.forall first second other same

/-- Ascending lists of the same paths are the same. -/
theorem Ascending.ext {first second : List Path} (ascending : Ascending first)
    (ascending' : Ascending second) (members : ∀ p, p ∈ first ↔ p ∈ second) : first = second := by
  have : Std.Irrefl fun p q : Path => compare p q = .lt := ⟨fun p before => by
    rw [Std.ReflOrd.compare_self] at before
    cases before⟩
  have : Std.Antisymm fun p q : Path => compare p q = .lt := ⟨fun p q before after => by
    rw [Std.OrientedCmp.gt_iff_lt.mpr before] at after
    cases after⟩
  exact List.Pairwise.eq_of_mem_iff ascending ascending' members

/-- Paths of which no two compare equal are sorted strictly. -/
theorem sortPaths_ascending {paths : List Path}
    (apart : paths.Pairwise fun p q => p.components ≠ q.components) :
    Ascending (Overlay.sortPaths paths) := by
  have sorted : (Overlay.sortPaths paths).Pairwise Before := by
    rw [sortPaths_eq_insertionSort]
    exact List.pairwise_insertionSort Before paths
  have apart := (sortPaths_perm paths).symm.pairwise apart fun differ same => differ same.symm
  refine (sorted.and apart).imp fun {p q} ⟨le, differ⟩ => ?_
  rw [Before, Ordering.isLE_iff_eq_lt_or_eq_eq] at le
  exact le.resolve_right fun same => differ (compare_eq_iff.mp same)

/-- Lists of the same paths, of which no two compare equal, are sorted into the same list. -/
theorem sortPaths_ext {first second : List Path}
    (apart : first.Pairwise fun p q => p.components ≠ q.components)
    (apart' : second.Pairwise fun p q => p.components ≠ q.components)
    (members : ∀ p, p ∈ first ↔ p ∈ second) : Overlay.sortPaths first = Overlay.sortPaths second :=
  (sortPaths_ascending apart).ext (sortPaths_ascending apart') fun p => by
    rw [(sortPaths_perm first).mem_iff, (sortPaths_perm second).mem_iff, members]

theorem sortPaths_of_ascending {paths : List Path} (ascending : Ascending paths) :
    Overlay.sortPaths paths = paths :=
  (sortPaths_ascending ascending.apart).ext ascending fun _ => (sortPaths_perm paths).mem_iff

/-- Of two paths that do not compare equal, it makes no difference which is put in place first. -/
theorem insertPath_comm {p q : Path} (differ : compare p q ≠ .eq) (paths : List Path) :
    Overlay.insertPath p (Overlay.insertPath q paths) =
      Overlay.insertPath q (Overlay.insertPath p paths) := by
  wlog less : compare p q = .lt generalizing p q with swapped
  · have greater : compare q p = .lt := by
      refine Std.OrientedCmp.gt_iff_lt.mp ?_
      cases order : compare p q with
      | lt => exact absurd order less
      | eq => exact absurd order differ
      | gt => rfl
    exact (swapped (by rw [greater]; decide) greater).symm
  have before : (compare p q).isLE = true := by rw [less]; rfl
  have behind : (compare q p).isLE = false := by rw [Std.OrientedCmp.gt_iff_lt.mpr less]; rfl
  induction paths with
  | nil => simp [Overlay.insertPath, before, behind]
  | cons head rest ih =>
    by_cases first : (compare q head).isLE = true
    · have both := Std.TransCmp.isLE_trans before first
      simp [Overlay.insertPath, before, behind, first, both]
    · by_cases own : (compare p head).isLE = true
      · simp [Overlay.insertPath, behind, first, own]
      · simp [Overlay.insertPath, first, own, ih]

theorem sortPaths_append (first second : List Path) :
    Overlay.sortPaths (first ++ second) = first.foldr Overlay.insertPath (Overlay.sortPaths second) :=
  List.foldr_append

/-- Paths of which some are in order already are sorted like all of them. -/
theorem sortPaths_presorted (first second : List Path) :
    Overlay.sortPaths (Overlay.sortPaths first ++ second) = Overlay.sortPaths (first ++ second) := by
  have insert (p : Path) (sorted placed : List Path) :
      (Overlay.insertPath p sorted).foldr Overlay.insertPath placed =
        Overlay.insertPath p (sorted.foldr Overlay.insertPath placed) := by
    induction sorted with
    | nil => rfl
    | cons q rest ih =>
      rw [Overlay.insertPath]
      split
      · rfl
      · rename_i behind
        have differ : compare p q ≠ .eq := fun same => behind (by rw [same]; rfl)
        rw [List.foldr_cons, ih, List.foldr_cons, insertPath_comm differ]
  rw [sortPaths_append, sortPaths_append]
  induction first with
  | nil => rfl
  | cons p first ih =>
    have step : Overlay.sortPaths (p :: first) = Overlay.insertPath p (Overlay.sortPaths first) := rfl
    rw [step, insert, ih, List.foldr_cons]

/-! ## Keys -/

section Keys

variable {overlay : Overlay} {dir : Path}

theorem keys_ascending (overlay : Overlay) : Ascending overlay.keys :=
  List.pairwise_map.mpr overlay.ascending

theorem mem_entriesOf {file : Path} :
    file ∈ overlay.entriesOf dir ↔ file ∈ overlay.keys ∧ LiesIn dir file :=
  List.mem_filter

theorem entriesOf_ascending (overlay : Overlay) (dir : Path) : Ascending (overlay.entriesOf dir) :=
  (keys_ascending overlay).filter _

theorem get?_congr {p q : Path} (same : p.components = q.components) :
    overlay.get? p = overlay.get? q :=
  findEntry_congr (compare_eq_iff.mpr same) _

/-- A path has the contents of the key that spells it. -/
theorem get?_of_key {key p : Path} {bytes : Text.Bytes} (member : (key, bytes) ∈ overlay.entries)
    (same : key.components = p.components) : overlay.get? p = some bytes := by
  rw [← get?_congr same]
  exact (TableListing.mem_entries_iff.mp member).2

theorem get?_eq_none_iff {p : Path} :
    overlay.get? p = none ↔ ∀ key ∈ overlay.keys, key.components ≠ p.components := by
  constructor
  · intro absent key member same
    obtain ⟨⟨key, bytes⟩, listed, rfl⟩ := List.mem_map.mp member
    rw [get?_of_key listed same] at absent
    cases absent
  · intro free
    refine Option.eq_none_iff_forall_ne_some.mpr fun bytes found => ?_
    obtain ⟨key, member, same⟩ := mem_of_findEntry found
    exact free key (List.mem_map_of_mem member) (compare_eq_iff.mp same).symm

end Keys

/-! ## Listings -/

/-- A path is in the list in one spelling or another. -/
def Held (paths : List Path) (p : Path) : Prop :=
  ∃ q ∈ paths, q.components = p.components

theorem held_append {first second : List Path} {p : Path} :
    Held (first ++ second) p ↔ Held first p ∨ Held second p := by
  simp [Held, or_and_right, exists_or]

theorem held_congr {first second : List Path} (members : ∀ p, p ∈ first ↔ p ∈ second) (p : Path) :
    Held first p ↔ Held second p := by
  simp [Held, members]

theorem held_keys_iff {overlay : Overlay} {p : Path} :
    Held overlay.keys p ↔ overlay.get? p ≠ none := by
  simp [Held, get?_eq_none_iff]

theorem any_same_iff_held {paths : List Path} {p : Path} :
    paths.any (·.same p) = true ↔ Held paths p := by
  simp [Held, List.any_eq_true, same_iff]

section Listings

variable {base : FileSystem} {overlay : Overlay} {dir : Path}

/-- The overlaid files of a directory that are not among its entries. -/
def added (overlay : Overlay) (dir : Path) (entries : List Path) : List Path :=
  (overlay.entriesOf dir).filter fun file => !entries.any (·.same file)

theorem mem_added {entries : List Path} {file : Path} : file ∈ added overlay dir entries ↔
    file ∈ overlay.keys ∧ LiesIn dir file ∧ ¬ Held entries file := by
  rw [added, List.mem_filter, mem_entriesOf, Bool.not_eq_true', ← Bool.not_eq_true, any_same_iff_held,
    and_assoc]

/-- Whether a path is added is told by its components. -/
theorem held_added_iff {entries : List Path} {p : Path} : Held (added overlay dir entries) p ↔
    Held overlay.keys p ∧ LiesIn dir p ∧ ¬ Held entries p := by
  have known {key : Path} (same : key.components = p.components) :
      Held entries key ↔ Held entries p := by
    simp only [Held, same]
  constructor
  · rintro ⟨key, listed, same⟩
    obtain ⟨member, inside, new⟩ := mem_added.mp listed
    exact ⟨⟨key, member, same⟩, (liesIn_congr rfl same).mp inside, mt (known same).mpr new⟩
  · rintro ⟨⟨key, member, same⟩, inside, new⟩
    exact ⟨key, mem_added.mpr ⟨member, (liesIn_congr rfl same).mpr inside, mt (known same).mp new⟩,
      same⟩

@[simp] theorem added_nil (overlay : Overlay) (dir : Path) :
    added overlay dir [] = overlay.entriesOf dir := by
  simp [added]

theorem added_ascending (overlay : Overlay) (dir : Path) (entries : List Path) :
    Ascending (added overlay dir entries) :=
  (entriesOf_ascending overlay dir).filter _

/-- What is added is told by the paths that are there, in whatever order. -/
theorem added_congr {first second : List Path} (members : ∀ p, p ∈ first ↔ p ∈ second) :
    added overlay dir first = added overlay dir second :=
  (added_ascending ..).ext (added_ascending ..) fun p => by
    rw [mem_added, mem_added, held_congr members]

theorem listing_of_listed {entries : List Path} (lists : base.listing dir = .ok entries) :
    (overlay.inFrontOf base).listing dir =
      .ok (Overlay.sortPaths (entries ++ added overlay dir entries)) := by
  simp only [Overlay.inFrontOf, lists, added]

theorem listing_of_missing (missing : base.listing dir = .error .notFound) :
    (overlay.inFrontOf base).listing dir =
      if overlay.entriesOf dir = [] then .error .notFound else .ok (overlay.entriesOf dir) := by
  simp only [Overlay.inFrontOf, missing, List.isEmpty_iff]

theorem listing_of_failed {cause : StorageError} (fails : base.listing dir = .error cause)
    (other : cause ≠ .notFound) : (overlay.inFrontOf base).listing dir = .error cause := by
  cases cause <;> first | exact absurd rfl other | simp only [Overlay.inFrontOf, fails]

end Listings

end PackageLoader.OverlayListings
