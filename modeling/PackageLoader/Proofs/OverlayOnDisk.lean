import Mathlib.Data.List.Find
import Mathlib.Data.List.Sort
import PackageLoader.Proofs.Agreement
import PackageLoader.Proofs.DirectoryWalk
import PackageLoader.Proofs.WrittenFiles

/-! An overlay in front of a disk against the same files written to the disk. In a directory that is
spelled in normal form both list the same paths in the same order, whatever they list has the same
contents, and what is a directory is the same to begin with. -/
namespace PackageLoader.OverlayOnDisk
open Disk PathNormalForm LinkFreeDisk WrittenFiles TableLaws Agreement

/-! ## Sorting -/

/-- The order of listings. -/
def Before (p q : Path) : Prop :=
  (compare p q).isLE = true

instance : DecidableRel Before := fun p q => inferInstanceAs (Decidable ((compare p q).isLE = true))

instance : Std.Total Before :=
  ⟨fun p q => by
    have swap : compare q p = (compare p q).swap := Std.OrientedCmp.eq_swap
    unfold Before
    rw [swap]
    cases compare p q <;> simp⟩

instance : IsTrans Path Before :=
  ⟨fun _ _ _ first second => Std.TransCmp.isLE_trans first second⟩

theorem sortPaths_eq_insertionSort (paths : List Path) :
    Overlay.sortPaths paths = paths.insertionSort Before := by
  have insert (p : Path) (sorted : List Path) :
      Overlay.insertPath p sorted = sorted.orderedInsert Before p := by
    induction sorted with
    | nil => rfl
    | cons q rest ih =>
      rw [Overlay.insertPath, List.orderedInsert_cons, ih]
      rfl
  induction paths with
  | nil => rfl
  | cons p rest ih =>
    rw [List.insertionSort_cons, ← ih, ← insert]
    rfl

theorem sortPaths_perm (paths : List Path) : (Overlay.sortPaths paths).Perm paths := by
  rw [sortPaths_eq_insertionSort]
  exact List.perm_insertionSort Before paths

/-- Lists of the same paths are sorted into the same list if no two paths in them compare equal. -/
theorem sortPaths_congr {first second : List Path} (perm : first.Perm second)
    (differ : ∀ p ∈ first, ∀ q ∈ first, compare p q = .eq → p = q) :
    Overlay.sortPaths first = Overlay.sortPaths second := by
  rw [sortPaths_eq_insertionSort, sortPaths_eq_insertionSort]
  have reordered : (first.insertionSort Before).Perm (second.insertionSort Before) :=
    (List.perm_insertionSort Before first).trans
      (perm.trans (List.perm_insertionSort Before second).symm)
  refine reordered.eq_of_pairwise (fun p q memberP memberQ le ge => ?_)
    (List.pairwise_insertionSort Before first) (List.pairwise_insertionSort Before second)
  have memberQ := reordered.mem_iff.mpr memberQ
  rw [List.mem_insertionSort] at memberP memberQ
  exact differ p memberP q memberQ (Std.OrientedCmp.isLE_antisymm le ge)

/-! ## One disk -/

section Disk

variable {disk : Disk}

theorem isName_of_mem (linkFree : LinkFree disk) {names : List String} {entries : Entries}
    (stands : disk.node? names = some (.directory entries)) {e : String × Node} (listed : e ∈ entries) :
    IsName e.1 := by
  have present := (mem_entries_iff stands e.1).mp (List.mem_map_of_mem listed)
  obtain ⟨kind, found⟩ := Option.isSome_iff_exists.mp present
  exact (linkFree _ _ found).1 e.1 (by simp)

/-- What a directory lists, in normal form. -/
theorem mem_children {p : Path} {names : List String} (leads : Leads p names)
    (linkFree : LinkFree disk) {entries : Entries}
    (stands : disk.node? names = some (.directory entries)) (q : Path) :
    q ∈ entries.map (fun e => p.child e.1) ↔
      ∃ name, IsName name ∧ q = canonicalPath (names ++ [name]) ∧
        (kind? disk (names ++ [name])).isSome := by
  constructor
  · intro member
    obtain ⟨e, listed, rfl⟩ := List.mem_map.mp member
    have valid := isName_of_mem linkFree stands listed
    exact ⟨e.1, valid, leads_child leads valid,
      (mem_entries_iff stands e.1).mp (List.mem_map_of_mem listed)⟩
  · rintro ⟨name, valid, rfl, present⟩
    obtain ⟨e, listed, rfl⟩ := List.mem_map.mp ((mem_entries_iff stands name).mpr present)
    exact List.mem_map.mpr ⟨e, listed, leads_child leads valid⟩

/-- A path in a directory that compares like one of those listed is one of them. -/
theorem any_same_iff {p : Path} {names : List String} (leads : Leads p names)
    (linkFree : LinkFree disk) {entries : Entries}
    (stands : disk.node? names = some (.directory entries)) {name : String} (valid : IsName name) :
    (entries.map fun e => p.child e.1).any (·.same (canonicalPath (names ++ [name]))) = true ↔
      canonicalPath (names ++ [name]) ∈ entries.map fun e => p.child e.1 := by
  rw [List.any_eq_true]
  constructor
  · rintro ⟨c, listed, same⟩
    obtain ⟨other, valid', rfl, -⟩ := (mem_children leads linkFree stands c).mp listed
    rw [canonicalPath_same (names_concat leads.valid valid') (names_concat leads.valid valid)] at same
    exact same ▸ listed
  · intro listed
    exact ⟨_, listed, by simp [Path.same]⟩

theorem children_nodup {p : Path} {names : List String} (leads : Leads p names)
    (linkFree : LinkFree disk) {entries : Entries}
    (stands : disk.node? names = some (.directory entries)) :
    (entries.map fun e => p.child e.1).Nodup := by
  have valid {e : String × Node} (listed : e ∈ entries) : IsName e.1 :=
    isName_of_mem linkFree stands listed
  apply List.pairwise_map.mpr
  apply (ascending_at stands).imp_of_mem
  intro a b memberA memberB before same
  rw [leads_child leads (valid memberA), leads_child leads (valid memberB)] at same
  have equal := canonicalPath_injective (names_concat leads.valid (valid memberA))
    (names_concat leads.valid (valid memberB)) same
  have names : a.1 = b.1 := by simpa using equal
  rw [KeyBefore, names, Std.ReflOrd.compare_self] at before
  cases before

theorem listing_empty (disk : Disk) (p : Path) :
    (Overlay.inFrontOf .empty disk.fileSystem).listing p =
      (disk.listing p).map Overlay.sortPaths := by
  have nothing : Overlay.entriesOf .empty p = [] := rfl
  simp only [Overlay.inFrontOf, Disk.fileSystem, nothing]
  cases disk.listing p with
  | error cause => cases cause <;> rfl
  | ok files => simp [Except.map]

theorem contents_empty (disk : Disk) (p : Path) :
    (Overlay.inFrontOf .empty disk.fileSystem).contents p = disk.contents p := rfl

/-- The directories that a walk comes through at and below what a path leads to. -/
def walked (disk : Disk) (how : Resolution) (p : Path) : List Path :=
  (disk.resolve how p).toOption.elim [] fun location =>
    directoriesAt disk.refuses location p (disk.node? location)

theorem directoriesBelow_eq (disk : Disk) (p : Path) :
    disk.directoriesBelow p = (walked disk {} p).tail := by
  unfold Disk.directoriesBelow Disk.opened walked
  cases disk.resolve {} p with
  | error cause => rfl
  | ok location =>
    simp only [bind, Except.bind, Except.toOption, Option.elim_some]
    cases disk.node? location with
    | none => rfl
    | some node =>
      cases node with
      | directory entries =>
        rw [directoriesAt, Option.elim_some, Node.directoriesFrom]
        cases disk.refuses location <;> rfl
      | _ => rfl

theorem directories_eq {disk : Disk} (linkFree : LinkFree disk) (p : Path) : disk.directories p =
    match walked disk { followLast := false } p with
    | [] => []
    | _ :: _ => p :: disk.directoriesBelow p := by
  unfold Disk.directories walked Disk.stat
  cases disk.resolve { followLast := false } p with
  | error cause => rfl
  | ok location =>
    simp only [bind, Except.bind, Except.toOption, Option.elim_some]
    cases stands : disk.node? location with
    | none => rfl
    | some node =>
      cases node with
      | link target => exact absurd stands (not_link linkFree)
      | directory entries =>
        rw [directoriesAt, Option.elim_some, Node.directoriesFrom]
      | file bytes => rfl

theorem home_of_mem_directoriesBelow (linkFree : LinkFree disk) {p : Path} {names : List String}
    (leads : Leads p names) : ∀ d ∈ disk.directoriesBelow p, IsHome disk d := by
  intro d member
  unfold Disk.directoriesBelow at member
  split at member
  · rename_i location entries opens
    obtain ⟨arrived, node, -⟩ := opened_eq_ok_iff.mp opens
    obtain ⟨rfl, -⟩ := resolve_arrives linkFree mayMiss_default leads arrived
    exact home_of_mem_directoriesIn linkFree entries leads (fun e listed => found_of_mem node listed)
      d member
  · cases member

/-- The descriptor of a directory is a file in it. -/
theorem descriptorIn_file (linkFree : LinkFree disk) {p file : Path} {names : List String}
    (leads : Leads p names) (found : disk.descriptorIn p = some file) :
    ∃ name bytes, name ∈ descriptorNames ∧ file = canonicalPath (names ++ [name]) ∧
      kind? disk (names ++ [name]) = some (.file bytes) ∧ disk.isFile file = true := by
  obtain ⟨name, descriptor, rfl⟩ := List.mem_map.mp (List.mem_of_find?_eq_some found)
  have valid := DirectoryWalk.isName_descriptor descriptor
  have isFile : disk.isFile (p.child name) = true := List.find?_some found
  rw [leads_child leads valid] at isFile ⊢
  obtain ⟨location, bytes, arrived, stands⟩ := isFile_iff.mp isFile
  obtain ⟨rfl, -⟩ := resolve_arrives linkFree mayMiss_default
    (leads_canonicalPath (names_concat leads.valid valid)) arrived
  exact ⟨name, bytes, descriptor, rfl, stands, isFile⟩

theorem exists_of_isFile {p : Path} (isFile : disk.isFile p = true) : disk.exists? p = true := by
  obtain ⟨bytes, found⟩ := isFile_iff_stat.mp isFile
  rw [Disk.exists?, found]
  rfl

theorem listing_isOk_iff {disk : Disk} {p : Path} : (disk.listing p).isOk = true ↔
    ∃ location, disk.resolve {} p = .ok location ∧ kind? disk location = some .directory ∧
      disk.refuses location = false := by
  rw [Subdirectories.listing_isOk]
  refine exists_congr fun location => ?_
  rw [kind?_directory]
  constructor
  · rintro ⟨entries, opens⟩
    obtain ⟨leads, stands, open'⟩ := opened_eq_ok_iff.mp opens
    exact ⟨leads, ⟨entries, stands⟩, open'⟩
  · rintro ⟨leads, ⟨entries, stands⟩, open'⟩
    exact ⟨entries, opened_eq_ok_iff.mpr ⟨leads, stands, open'⟩⟩

theorem isDir_of_listing {p : Path} (listed : (disk.listing p).isOk = true) :
    disk.isDir p = true := by
  obtain ⟨location, arrived, directory, -⟩ := listing_isOk_iff.mp listed
  exact isDir_iff.mpr ⟨location, arrived, directory⟩

theorem home_of_isDir (linkFree : LinkFree disk) {p : Path} {names : List String}
    (leads : Leads p names) (isDir : disk.isDir p = true) : IsHome disk p := by
  obtain ⟨location, arrived, directory⟩ := isDir_iff.mp isDir
  obtain ⟨rfl, -⟩ := resolve_arrives linkFree mayMiss_default leads arrived
  exact ⟨location, leads, directory⟩

theorem home_of_mem_directories (linkFree : LinkFree disk) {p : Path} (home : IsHome disk p) :
    ∀ d ∈ disk.directories p, IsHome disk d := by
  intro d member
  rw [directories_eq linkFree] at member
  split at member
  · cases member
  · rcases List.mem_cons.mp member with rfl | below
    · exact home
    · obtain ⟨names, leads, -⟩ := home
      exact home_of_mem_directoriesBelow linkFree leads d below

theorem moduleDirs_toOption (disk : Disk) (p : Path) : (disk.moduleDirs p).toOption =
    if (disk.listing p).isOk then
      some ((disk.directories p).filter fun dir => (disk.descriptorIn dir).isSome)
    else none := by
  unfold Disk.moduleDirs
  cases disk.listing p <;> rfl

theorem home_of_mem_moduleDirs (linkFree : LinkFree disk) {p : Path} {names : List String}
    (leads : Leads p names) {dirs : List Path} (found : (disk.moduleDirs p).toOption = some dirs) :
    ∀ d ∈ dirs, IsHome disk d := by
  rw [moduleDirs_toOption] at found
  split at found
  · rename_i listed
    cases found
    intro d member
    exact home_of_mem_directories linkFree (home_of_isDir linkFree leads (isDir_of_listing listed)) d
      (List.mem_filter.mp member).1
  · cases found

end Disk

section Overlaid

variable {overlay : Overlay} {disk : Disk}

/-! ## Keys -/

/-- Keys in a directory are spelled as the directory spells what it holds. -/
theorem mem_entriesOf (writable : ∀ key ∈ overlay.keys, Writable disk key) {p : Path}
    {names : List String} (leads : Leads p names) (q : Path) : q ∈ overlay.entriesOf p ↔
      ∃ name, IsName name ∧ q = canonicalPath (names ++ [name]) ∧ q ∈ overlay.keys := by
  unfold Overlay.entriesOf
  rw [List.mem_filter]
  constructor
  · rintro ⟨member, inside⟩
    have given := writable q member
    cases given with
    | @file home last valid final fits stands target other =>
      rw [canonicalPath_parent? valid final, Option.any_some, Path.same, beq_iff_eq,
        canonicalPath_components valid, (leads_steps leads).1, List.cons.injEq] at inside
      have same : home = names := List.map_injective_iff.mpr (fun _ _ => Component.name.inj) inside.2
      exact ⟨last, final, same ▸ rfl, member⟩
  · rintro ⟨name, valid, rfl, member⟩
    refine ⟨member, ?_⟩
    rw [canonicalPath_parent? leads.valid valid, Option.any_some, Path.same, beq_iff_eq,
      canonicalPath_components leads.valid, (leads_steps leads).1]

theorem fits_of_writable {p : Path} (given : Writable disk p) : Fits p := by
  cases given with
  | file valid final fits home target other => exact fits

variable (linkFree : LinkFree disk) (writable : ∀ key ∈ overlay.keys, Writable disk key)
include linkFree writable

/-! ## Access -/

/-- What has no contents in the overlay can be read after the overlay was written as it could before. -/
theorem refuses_kept {location : List String} (valid : ∀ name ∈ location, IsName name)
    (absent : findEntry (canonicalPath location) overlay.entries = none) :
    (writtenTo overlay disk).refuses location = disk.refuses location := by
  rw [(written_overlay linkFree writable).refuses location valid, absent]
  rfl

/-- Directories can be listed as they could before. -/
theorem refuses_directory {location : List String} (home : kind? disk location = some .directory) :
    (writtenTo overlay disk).refuses location = disk.refuses location := by
  have valid := (linkFree _ _ home).1
  refine refuses_kept linkFree writable valid ?_
  rw [← Option.not_isSome_iff_eq_none, ← mem_keys_iff_get? writable valid]
  intro member
  obtain ⟨bytes, impossible⟩ := (writable_location valid (writable _ member)).1 _ home
  cases impossible

/-- Both disks can list the same paths. -/
theorem listing_isOk_agree (p : Path) :
    ((writtenTo overlay disk).listing p).isOk = (disk.listing p).isOk := by
  have more := written_extends linkFree writable
  obtain ⟨found, onlyThere⟩ := resolve_extends more mayMiss_default p
  rw [Bool.eq_iff_iff, listing_isOk_iff, listing_isOk_iff]
  constructor
  · rintro ⟨location, arrived, directory, open'⟩
    rw [more.directories] at directory
    rw [refuses_directory linkFree writable directory] at open'
    rcases onlyThere location arrived with same | absent
    · exact ⟨location, same, directory, open'⟩
    · rw [absent] at directory
      cases directory
  · rintro ⟨location, arrived, directory, open'⟩
    refine ⟨location, (found (by rw [arrived]; simp)).trans arrived, ?_, ?_⟩
    · rwa [more.directories]
    · rwa [refuses_directory linkFree writable directory]

/-! ## Listings -/

/-- Once an overlay is written, its files are listed beside those that were there. -/
theorem mem_written_children {p : Path} {names : List String} (leads : Leads p names)
    {entries entries' : Entries} (node : disk.node? names = some (.directory entries))
    (node' : (writtenTo overlay disk).node? names = some (.directory entries')) (q : Path) :
    q ∈ entries'.map (fun e => p.child e.1) ↔
      q ∈ entries.map (fun e => p.child e.1) ∨ q ∈ overlay.entriesOf p := by
  have written := written_overlay linkFree writable
  rw [mem_children leads written.linkFree node', mem_children leads linkFree node,
    mem_entriesOf writable leads]
  constructor
  · rintro ⟨name, valid, rfl, present⟩
    have all := names_concat leads.valid valid
    rw [written.kinds _ all, Option.isSome_or, Option.isSome_map, Bool.or_eq_true,
      ← mem_keys_iff_get? writable all] at present
    rcases present with key | stands
    · exact Or.inr ⟨name, valid, rfl, key⟩
    · exact Or.inl ⟨name, valid, rfl, stands⟩
  · rintro (⟨name, valid, rfl, stands⟩ | ⟨name, valid, rfl, key⟩)
    · exact ⟨name, valid, rfl, (written_extends linkFree writable).present _ stands⟩
    · have all := names_concat leads.valid valid
      refine ⟨name, valid, rfl, ?_⟩
      rw [written.kinds _ all, Option.isSome_or, Option.isSome_map,
        (mem_keys_iff_get? writable all).mp key]
      rfl

/-- What a directory lists below the overlay and what the overlay adds to it are, taken together, the
files of the directory once they are written. -/
theorem listed_agree {p : Path} {names : List String} (leads : Leads p names)
    {entries entries' : Entries} (node : disk.node? names = some (.directory entries))
    (node' : (writtenTo overlay disk).node? names = some (.directory entries')) :
    Overlay.sortPaths (entries'.map fun e => p.child e.1) =
      Overlay.sortPaths ((entries.map fun e => p.child e.1) ++
        (overlay.entriesOf p).filter fun file =>
          !(entries.map fun e => p.child e.1).any (·.same file)) := by
  have written := written_overlay linkFree writable
  have new := mem_children leads written.linkFree node'
  have fresh {q : Path} (member : q ∈ overlay.entriesOf p) :
      (!(entries.map fun e => p.child e.1).any (·.same q)) = true ↔
        q ∉ entries.map fun e => p.child e.1 := by
    obtain ⟨name, valid, rfl, -⟩ := (mem_entriesOf writable leads q).mp member
    rw [Bool.not_eq_true', ← Bool.not_eq_true, any_same_iff leads linkFree node valid]
  have members (q : Path) : q ∈ (entries'.map fun e => p.child e.1) ↔
      q ∈ (entries.map fun e => p.child e.1) ++ (overlay.entriesOf p).filter fun file =>
        !(entries.map fun e => p.child e.1).any (·.same file) := by
    rw [List.mem_append, List.mem_filter, mem_written_children linkFree writable leads node node']
    by_cases listed : q ∈ entries.map fun e => p.child e.1
    · exact iff_of_true (Or.inl listed) (Or.inl listed)
    · exact or_congr_right ⟨fun member => ⟨member, (fresh member).mpr listed⟩, And.left⟩
  apply sortPaths_congr ((List.perm_ext_iff_of_nodup ?_ ?_).mpr members)
  · intro a memberA b memberB same
    obtain ⟨nameA, validA, rfl, -⟩ := (new a).mp memberA
    obtain ⟨nameB, validB, rfl, -⟩ := (new b).mp memberB
    rw [compare_canonicalPath (names_concat leads.valid validA) (names_concat leads.valid validB)]
      at same
    rw [same]
  · exact children_nodup leads written.linkFree node'
  · refine List.nodup_append.mpr ⟨children_nodup leads linkFree node,
      ((keys_nodup overlay).filter _).filter _, ?_⟩
    rintro a listed b kept rfl
    obtain ⟨member, unlisted⟩ := List.mem_filter.mp kept
    exact (fresh member).mp unlisted listed

/-- In a directory both list the same paths in the same order. -/
theorem listing_agrees {p : Path} {names : List String} (leads : Leads p names)
    (home : kind? disk names = some .directory) :
    (Overlay.inFrontOf .empty (writtenTo overlay disk).fileSystem).listing p =
      (overlay.inFrontOf disk.fileSystem).listing p := by
  have written := written_overlay linkFree writable
  have more := written_extends linkFree writable
  have present : (kind? disk names).isSome := by rw [home]; rfl
  have reached := resolve_same more leads present mayMiss_default
  have found := @resolve_stands disk linkFree {} p names leads present
  rw [listing_empty]
  simp only [Overlay.inFrontOf, Disk.fileSystem, listing_eq, reached]
  cases arrived : disk.resolve {} p with
  | error cause =>
    cases cause with
    | notFound => exact absurd arrived found
    | _ => rfl
  | ok location =>
    obtain ⟨rfl, -⟩ := resolve_arrives linkFree mayMiss_default leads arrived
    obtain ⟨entries, node⟩ := kind?_directory.mp home
    obtain ⟨entries', node'⟩ := kind?_directory.mp ((more.directories location).mpr home)
    simp only [node, node', refuses_directory linkFree writable home]
    cases disk.refuses location with
    | true => rfl
    | false => exact congrArg Except.ok (listed_agree linkFree writable leads node node')

/-! ## Contents -/

/-- What a directory holds once the overlay is written has the contents that the overlay gives it. -/
theorem contents_agree {names : List String} {name : String} (valid : ∀ n ∈ names, IsName n)
    (last : IsName name) (home : kind? disk names = some .directory)
    (stands : (kind? (writtenTo overlay disk) (names ++ [name])).isSome) :
    (Overlay.inFrontOf .empty (writtenTo overlay disk).fileSystem).contents
        (canonicalPath (names ++ [name])) =
      (overlay.inFrontOf disk.fileSystem).contents (canonicalPath (names ++ [name])) := by
  have written := written_overlay linkFree writable
  have more := written_extends linkFree writable
  have all := names_concat valid last
  have kinds := written.kinds _ all
  rw [contents_empty]
  simp only [Overlay.inFrontOf, Disk.fileSystem]
  cases found : overlay.get? (canonicalPath (names ++ [name])) with
  | none =>
    have absent : findEntry (canonicalPath (names ++ [name])) overlay.entries = none := found
    rw [absent, Option.map_none, Option.none_or] at kinds
    exact contents_same more (leads_canonicalPath all) (kinds ▸ stands) kinds
      (refuses_kept linkFree writable all absent)
  | some bytes =>
    have present : findEntry (canonicalPath (names ++ [name])) overlay.entries = some bytes := found
    rw [present, Option.map_some, Option.some_or] at kinds
    have arrives := @resolve_fits _ written.linkFree {} names name valid last
      (fits_of_writable (writable_of_get? writable all found)) ((more.directories names).mpr home)
      (Or.inr stands)
    have open' : (writtenTo overlay disk).refuses (names ++ [name]) = false := by
      rw [written.refuses _ all, present]
      rfl
    rw [contents_eq, arrives]
    simp only [kinds, open', Bool.false_eq_true, if_false]

/-- Loading sees no difference in a directory. -/
theorem agreeIn_home {p : Path} (home : IsHome disk p) :
    AgreeIn (overlay.inFrontOf disk.fileSystem)
      (Overlay.inFrontOf .empty (writtenTo overlay disk).fileSystem) p := by
  obtain ⟨names, leads, directory⟩ := home
  have same := listing_agrees linkFree writable leads directory
  refine ⟨same, fun files listed file member => ?_⟩
  have written := written_overlay linkFree writable
  rw [← same, listing_empty] at listed
  cases lists : (writtenTo overlay disk).listing p with
  | error cause =>
    rw [lists] at listed
    cases listed
  | ok found =>
    rw [lists] at listed
    cases listed
    obtain ⟨location, entries, opens, rfl⟩ := DirectoryWalk.listing_eq_ok_iff.mp lists
    obtain ⟨arrived, node, -⟩ := opened_eq_ok_iff.mp opens
    obtain ⟨rfl, -⟩ := resolve_arrives written.linkFree mayMiss_default leads arrived
    rw [(sortPaths_perm _).mem_iff, mem_children leads written.linkFree node] at member
    obtain ⟨name, valid, rfl, stands⟩ := member
    exact contents_agree linkFree writable leads.valid valid directory stands

/-! ## Directories -/

/-- A walk from a path comes through the same directories on both disks. -/
theorem walked_agree {how : Resolution} (exact : how.mayMiss = false) (p : Path) :
    walked (writtenTo overlay disk) how p = walked disk how p := by
  have written := written_overlay linkFree writable
  obtain ⟨found, onlyThere⟩ := resolve_extends (written_extends linkFree writable) exact p
  unfold walked
  cases arrived : disk.resolve how p with
  | ok location =>
    rw [arrived] at found
    rw [found (by simp)]
    exact written.directories location p
  | error cause =>
    cases arrived' : (writtenTo overlay disk).resolve how p with
    | error cause' => rfl
    | ok location =>
      rcases onlyThere location arrived' with same | absent
      · rw [arrived] at same
        cases same
      · have nothing : disk.node? location = none := by
          simpa [kind?] using absent
        exact (written.directories location p).trans (by rw [nothing]; rfl)

theorem directoriesBelow_agree (p : Path) :
    (writtenTo overlay disk).directoriesBelow p = disk.directoriesBelow p := by
  rw [directoriesBelow_eq, directoriesBelow_eq, walked_agree linkFree writable mayMiss_default]

theorem directories_agree (p : Path) :
    (writtenTo overlay disk).directories p = disk.directories p := by
  rw [directories_eq (written_overlay linkFree writable).linkFree, directories_eq linkFree,
    directoriesBelow_agree linkFree writable, walked_agree linkFree writable rfl]

/-! ## Modules -/

/-- No descriptor is overlaid. -/
theorem descriptor_kept {names : List String} {name : String} (valid : ∀ n ∈ names, IsName n)
    (descriptor : name ∈ descriptorNames) :
    kind? (writtenTo overlay disk) (names ++ [name]) = kind? disk (names ++ [name]) ∧
      (writtenTo overlay disk).refuses (names ++ [name]) = disk.refuses (names ++ [name]) := by
  have all := names_concat valid (DirectoryWalk.isName_descriptor descriptor)
  have absent : findEntry (canonicalPath (names ++ [name])) overlay.entries = none := by
    rw [← Option.not_isSome_iff_eq_none, ← mem_keys_iff_get? writable all]
    intro member
    exact (writable_location all (writable _ member)).2 name descriptor List.getLast?_concat
  refine ⟨?_, refuses_kept linkFree writable all absent⟩
  rw [(written_overlay linkFree writable).kinds _ all, absent]
  rfl

theorem descriptorIn_agree {p : Path} {names : List String} (leads : Leads p names) :
    (writtenTo overlay disk).descriptorIn p = disk.descriptorIn p := by
  unfold Disk.descriptorIn
  apply List.find?_congr
  intro file member
  obtain ⟨name, descriptor, rfl⟩ := List.mem_map.mp member
  have valid := DirectoryWalk.isName_descriptor descriptor
  rw [leads_child leads valid]
  exact isFile_same (written_extends linkFree writable)
    (leads_canonicalPath (names_concat leads.valid valid))
    (descriptor_kept linkFree writable leads.valid descriptor).1

/-- Both disks hold the same module at a path in normal form. -/
theorem moduleOf_agree {p : Path} {names : List String} (leads : Leads p names) :
    (writtenTo overlay disk).moduleOf p = disk.moduleOf p := by
  unfold Disk.moduleOf
  rw [descriptorIn_agree linkFree writable leads]
  cases found : disk.descriptorIn p with
  | none => rfl
  | some file =>
    obtain ⟨name, bytes, descriptor, rfl, stands, isFile⟩ := descriptorIn_file linkFree leads found
    have more := written_extends linkFree writable
    have all := leads_canonicalPath
      (names_concat leads.valid (DirectoryWalk.isName_descriptor descriptor))
    obtain ⟨kept, access⟩ := descriptor_kept linkFree writable leads.valid descriptor
    have contents := contents_same more all (by rw [stands]; rfl) kept access
    simp only [Disk.readDescriptor]
    rw [exists_of_isFile isFile, exists_of_isFile ((isFile_same more all kept).trans isFile), contents]

/-- Both disks have the same module directories at and below a path in normal form, or neither can
list it. -/
theorem moduleDirs_agree {p : Path} {names : List String} (leads : Leads p names) :
    ((writtenTo overlay disk).moduleDirs p).toOption = (disk.moduleDirs p).toOption := by
  rw [moduleDirs_toOption, moduleDirs_toOption, listing_isOk_agree linkFree writable,
    directories_agree linkFree writable]
  split
  · rename_i listed
    congr 1
    apply List.filter_congr
    intro d member
    obtain ⟨below, leadsBelow, -⟩ :=
      home_of_mem_directories linkFree (home_of_isDir linkFree leads (isDir_of_listing listed)) d member
    rw [descriptorIn_agree linkFree writable leadsBelow]
  · rfl

end Overlaid

end PackageLoader.OverlayOnDisk
