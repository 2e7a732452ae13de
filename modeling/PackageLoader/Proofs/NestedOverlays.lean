import Mathlib.Data.List.Forall2
import PackageLoader.Proofs.OverlaidAlike
import PackageLoader.Proofs.OverlayListings

/-! One overlay in front of another. Together they answer like a single overlay that holds the files of
both, where a file of both has the contents of the upper one. That the lower overlay may have listed a
directory that is missing below it makes no difference, as the upper one would have had to list the same
files. -/
namespace PackageLoader.NestedOverlays
open OverlaidAlike OverlayListings OverlayOnDisk PathParents PathSpellings TableListing

/-! ## Both in one -/

/-- The files of both overlays. What both hold keeps the spelling of the lower one and has the contents
of the upper one. -/
def onto (upper lower : Overlay) : Overlay :=
  lower.insertAll upper.entries

section Both

variable {upper lower : Overlay} {dir : Path}

theorem get?_onto (upper lower : Overlay) (p : Path) :
    (onto upper lower).get? p = (upper.get? p).or (lower.get? p) := by
  rw [onto, get?_insertAll, ofList_entries]

theorem mem_keys_onto {key : Path} : key ∈ (onto upper lower).keys ↔
    key ∈ lower.keys ∨ key ∈ upper.keys ∧ ¬ Held lower.keys key := by
  rw [onto, mem_keys_insertAll, ofList_entries, get?_eq_none_iff]
  simp [Held]

/-- Beside the entries of a directory, both overlays together add what the lower one adds and what the
upper one then adds to that. -/
theorem sortPaths_added_onto (upper lower : Overlay) (dir : Path) (entries : List Path) :
    Overlay.sortPaths (added (onto upper lower) dir entries) =
      Overlay.sortPaths (added lower dir entries ++
        added upper dir (entries ++ added lower dir entries)) := by
  apply sortPaths_ext (added_ascending ..).apart
  · refine List.pairwise_append.mpr ⟨(added_ascending ..).apart, (added_ascending ..).apart, ?_⟩
    intro own first other second same
    exact (mem_added.mp second).2.2 ⟨own, List.mem_append_right _ first, same⟩
  · intro p
    simp only [List.mem_append, mem_added, mem_keys_onto, held_append, held_added_iff]
    constructor
    · rintro ⟨low | ⟨up, free⟩, inside, new⟩
      · exact Or.inl ⟨low, inside, new⟩
      · refine Or.inr ⟨up, inside, ?_⟩
        rintro (known | ⟨low, -⟩)
        · exact new known
        · exact free low
    · rintro (⟨low, inside, new⟩ | ⟨up, inside, new⟩)
      · exact ⟨Or.inl low, inside, new⟩
      · have fresh := fun known => new (Or.inl known)
        exact ⟨Or.inr ⟨up, fun low => new (Or.inr ⟨low, inside, fresh⟩)⟩, inside, fresh⟩

theorem entriesOf_onto (upper lower : Overlay) (dir : Path) : (onto upper lower).entriesOf dir =
    Overlay.sortPaths (lower.entriesOf dir ++ added upper dir (lower.entriesOf dir)) := by
  have both := sortPaths_added_onto upper lower dir []
  rwa [added_nil, added_nil, List.nil_append,
    sortPaths_of_ascending (entriesOf_ascending ..)] at both

variable {base : FileSystem}

/-- Both overlays list a directory like the one that holds the files of both. -/
theorem listing_onto (base : FileSystem) (upper lower : Overlay) (dir : Path) :
    (upper.inFrontOf (lower.inFrontOf base)).listing dir =
      ((onto upper lower).inFrontOf base).listing dir := by
  cases lists : base.listing dir with
  | ok entries =>
    have inner : (lower.inFrontOf base).listing dir = .ok _ := listing_of_listed lists
    rw [listing_of_listed inner, listing_of_listed lists, sortPaths_presorted,
      added_congr fun _ => (sortPaths_perm _).mem_iff, List.append_assoc, sortPaths_append,
      ← sortPaths_added_onto, ← sortPaths_append]
  | error cause =>
    by_cases missing : cause = .notFound
    · subst missing
      have inner : (lower.inFrontOf base).listing dir =
          if lower.entriesOf dir = [] then .error .notFound else .ok (lower.entriesOf dir) :=
        listing_of_missing lists
      rw [listing_of_missing lists, entriesOf_onto]
      by_cases none : lower.entriesOf dir = []
      · rw [if_pos none] at inner
        rw [listing_of_missing inner, none, List.nil_append, added_nil,
          sortPaths_of_ascending (entriesOf_ascending ..)]
      · rw [if_neg none] at inner
        rw [listing_of_listed inner, if_neg]
        intro nothing
        have perm := sortPaths_perm (lower.entriesOf dir ++ added upper dir (lower.entriesOf dir))
        rw [nothing] at perm
        exact none (List.append_eq_nil_iff.mp perm.nil_eq.symm).1
    · rw [listing_of_failed (listing_of_failed lists missing) missing, listing_of_failed lists missing]

/-- An overlay in front of another answers like the overlay with the files of both. -/
theorem inFrontOf_onto (base : FileSystem) (upper lower : Overlay) :
    upper.inFrontOf (lower.inFrontOf base) = (onto upper lower).inFrontOf base := by
  have contents (p : Path) : (upper.inFrontOf (lower.inFrontOf base)).contents p =
      ((onto upper lower).inFrontOf base).contents p := by
    simp only [Overlay.inFrontOf, get?_onto]
    cases upper.get? p <;> rfl
  have isFile (p : Path) : (upper.inFrontOf (lower.inFrontOf base)).isFile p =
      ((onto upper lower).inFrontOf base).isFile p := by
    simp only [Overlay.inFrontOf, Table.contains, get?_onto, Option.isSome_or, Bool.or_assoc]
  have listing := listing_onto base upper lower
  show FileSystem.mk _ _ _ _ = FileSystem.mk _ _ _ _
  rw [FileSystem.mk.injEq]
  exact ⟨funext contents, funext listing, rfl, funext isFile⟩

end Both

/-! ## Other spellings -/

/-- The lists hold the same paths in the same order, in whatever spelling. -/
def Respelled : List Path → List Path → Prop :=
  List.Forall₂ fun p q => p.components = q.components

theorem respelled_iff {paths paths' : List Path} :
    Respelled paths paths' ↔ paths.map Path.components = paths'.map Path.components := by
  rw [← List.forall₂_eq_eq_eq, List.forall₂_map_left_iff, List.forall₂_map_right_iff]
  rfl

/-- Ascending lists that hold the same paths hold them in the same order. -/
theorem respelled_of_ascending {paths paths' : List Path} (ascending : Ascending paths)
    (ascending' : Ascending paths') (members : ∀ p, Held paths p ↔ Held paths' p) :
    Respelled paths paths' := by
  have : Std.Irrefl fun a b : List Component => compare a b = .lt := ⟨fun a before => by
    rw [Std.ReflOrd.compare_self] at before
    cases before⟩
  have : Std.Antisymm fun a b : List Component => compare a b = .lt := ⟨fun a b before after => by
    rw [Std.OrientedCmp.gt_iff_lt.mpr before] at after
    cases after⟩
  have told {paths : List Path} (ascending : Ascending paths) :
      (paths.map Path.components).Pairwise fun a b => compare a b = .lt :=
    List.pairwise_map.mpr ascending
  rw [respelled_iff]
  refine List.Pairwise.eq_of_mem_iff (told ascending) (told ascending') fun cs => ?_
  simp only [List.mem_map]
  constructor
  · rintro ⟨p, member, rfl⟩
    exact (members p).mp ⟨p, member, rfl⟩
  · rintro ⟨p, member, rfl⟩
    exact (members p).mpr ⟨p, member, rfl⟩

section Spelling

variable {a b : Overlay} {base : FileSystem}

theorem added_respelled (same : ∀ p, a.get? p = b.get? p) (dir : Path) (entries : List Path) :
    Respelled (added a dir entries) (added b dir entries) := by
  refine respelled_of_ascending (added_ascending ..) (added_ascending ..) fun p => ?_
  have keys : Held a.keys p ↔ Held b.keys p := by
    rw [held_keys_iff, held_keys_iff, same]
  rw [held_added_iff, held_added_iff, keys]

/-- Overlays with the same contents list the same paths, each in the spelling of its own keys. -/
theorem listing_respelled (same : ∀ p, a.get? p = b.get? p) (dir : Path) :
    ((a.inFrontOf base).listing dir).map (·.map Path.components) =
      ((b.inFrontOf base).listing dir).map (·.map Path.components) := by
  cases lists : base.listing dir with
  | ok entries =>
    have own : Respelled entries entries := List.forall₂_same.mpr fun _ _ => rfl
    have sorted := sortPaths_alike (fun _ _ _ _ => compare_congr)
      (List.rel_append own (added_respelled same dir entries))
    rw [listing_of_listed lists, listing_of_listed lists]
    exact congrArg Except.ok (respelled_iff.mp sorted)
  | error cause =>
    by_cases missing : cause = .notFound
    · subst missing
      have entries := added_respelled same dir []
      rw [added_nil, added_nil] at entries
      rw [listing_of_missing lists, listing_of_missing lists]
      by_cases none : a.entriesOf dir = []
      · rw [none, Respelled, List.forall₂_nil_left_iff] at entries
        rw [none, entries]
      · rw [if_neg none, if_neg fun nothing => none ?_]
        · exact congrArg Except.ok (respelled_iff.mp entries)
        · rwa [nothing, Respelled, List.forall₂_nil_right_iff] at entries
    · rw [listing_of_failed lists missing, listing_of_failed lists missing]

end Spelling

/-! ## Answers -/

/-- Both file systems give the same answers and fail alike, when the paths that they list are told by
their components. -/
structure AnswerAlike (fs fs' : FileSystem) : Prop where
  contents : ∀ p, fs.contents p = fs'.contents p
  listing : ∀ dir, (fs.listing dir).map (·.map Path.components) =
    (fs'.listing dir).map (·.map Path.components)
  isDir : ∀ p, fs.isDir p = fs'.isDir p
  isFile : ∀ p, fs.isFile p = fs'.isFile p

/-- The files of both overlays, in whatever spelling. What both hold has the contents of the upper
one. -/
def IsUnion (upper lower union : Overlay) : Prop :=
  ∀ p, union.get? p = (upper.get? p).or (lower.get? p)

/-- Two overlays, one in front of the other, answer like a single overlay in front of the same file
system that holds the files of both, where the upper one wins. How that one spells its paths shows in
listings only, and if it keeps the spelling of the lower overlay, there is no difference at all. -/
theorem nested_overlays_answer (base : FileSystem) (upper lower : Overlay) :
    (∀ union, IsUnion upper lower union →
      AnswerAlike (upper.inFrontOf (lower.inFrontOf base)) (union.inFrontOf base)) ∧
    IsUnion upper lower (onto upper lower) ∧
    upper.inFrontOf (lower.inFrontOf base) = (onto upper lower).inFrontOf base := by
  refine ⟨fun union holds => ?_, get?_onto upper lower, inFrontOf_onto base upper lower⟩
  have same (p : Path) : (onto upper lower).get? p = union.get? p := by
    rw [get?_onto, holds]
  rw [inFrontOf_onto]
  constructor
  · intro p
    simp only [Overlay.inFrontOf, same]
  · exact listing_respelled same
  · intro p
    rfl
  · intro p
    simp only [Overlay.inFrontOf, Table.contains, same]

/-- Both overlays hold one file, each in a spelling of its own, in a directory that is missing below. -/
theorem nested_overlays_answer_respelled :
    let base := Disk.empty.fileSystem
    let upper : Overlay := .ofList [(⟨"/a//x.gno"⟩, [1])]
    let lower : Overlay := .ofList [(⟨"/a/x.gno"⟩, [2]), (⟨"/a/y.gno"⟩, [3])]
    let union : Overlay := .ofList [(⟨"/a//x.gno"⟩, [1]), (⟨"/a/y.gno"⟩, [3])]
    base.listing ⟨"/a"⟩ = .error .notFound ∧ IsUnion upper lower union ∧
    AnswerAlike (upper.inFrontOf (lower.inFrontOf base)) (union.inFrontOf base) := by
  intro base upper lower union
  have spelled (p : Path) : compare p ⟨"/a/x.gno"⟩ = compare p ⟨"/a//x.gno"⟩ := by
    have same : (Path.mk "/a/x.gno").components = (Path.mk "/a//x.gno").components := by
      decide +kernel
    exact compare_congr rfl same
  have holds : IsUnion upper lower union := by
    intro p
    show findEntry p [(⟨"/a//x.gno"⟩, [1]), (⟨"/a/y.gno"⟩, [3])] =
      (findEntry p [(⟨"/a//x.gno"⟩, [1])]).or
        (findEntry p [(⟨"/a/x.gno"⟩, [2]), (⟨"/a/y.gno"⟩, [3])])
    simp only [findEntry, spelled]
    split <;> rfl
  exact ⟨rfl, holds, (nested_overlays_answer base upper lower).1 union holds⟩

end PackageLoader.NestedOverlays
