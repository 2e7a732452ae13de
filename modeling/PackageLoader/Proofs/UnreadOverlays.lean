import PackageLoader.Proofs.Agreement
import PackageLoader.Proofs.FileQueries
import PackageLoader.Proofs.LibraryInjection
import PackageLoader.Proofs.PatternOrder
import PackageLoader.Proofs.SourceListings
import PackageLoader.Proofs.TwoPaths

/-! Overlaid files that a load never asks for. A load only lists directories at and below the trees that
it walks, and of what they list it only reads files that are named like source files. Any other overlaid
file can be left out, and the load has the same outcome. -/
namespace PackageLoader.UnreadOverlays
open Agreement Disk DirectoryWalk LibraryInjection LinkFreeDisk Offers OverlayListings PathNormalForm
open PathParents PathSpellings PatternOrder PatternRuns SourceListings Subdirectories TableLaws TwoPaths
open FirstDiscovery (sampleSettings)

/-! ## Leaving files out -/

/-- The overlay without some of its files. -/
def without (overlay : Overlay) (drop : Path → Bool) : Overlay :=
  overlay.revise fun key bytes => if drop key then none else some bytes

section Without

variable {base : FileSystem} {overlay : Overlay} {drop : Path → Bool} {dir : Path}

theorem mem_entries_without {key : Path} {bytes : Text.Bytes} :
    (key, bytes) ∈ (without overlay drop).entries ↔
      (key, bytes) ∈ overlay.entries ∧ drop key = false := by
  simp only [without, Table.revise, List.mem_filterMap]
  constructor
  · rintro ⟨⟨k, b⟩, member, kept⟩
    by_cases out : drop k = true
    · simp [out] at kept
    · simp only [out, Bool.false_eq_true, ↓reduceIte, Option.map_some, Option.some.injEq] at kept
      cases kept
      exact ⟨member, by simpa using out⟩
  · rintro ⟨member, kept⟩
    exact ⟨(key, bytes), member, by simp [kept]⟩

theorem mem_keys_without {key : Path} :
    key ∈ (without overlay drop).keys ↔ key ∈ overlay.keys ∧ drop key = false := by
  simp only [Table.keys, List.mem_map, Prod.exists, exists_and_right, exists_eq_right,
    mem_entries_without]

/-- A path has the contents that it had unless they were left out. -/
theorem get?_without {p : Path}
    (kept : ∀ key ∈ overlay.keys, key.components = p.components → drop key = false) :
    (without overlay drop).get? p = overlay.get? p := by
  cases found : overlay.get? p with
  | none =>
    rw [get?_eq_none_iff] at found ⊢
    exact fun key member => found key (mem_keys_without.mp member).1
  | some bytes =>
    obtain ⟨key, member, same⟩ := mem_of_findEntry found
    have same := (compare_eq_iff.mp same).symm
    exact get?_of_key (mem_entries_without.mpr
      ⟨member, kept key (List.mem_map_of_mem member) same⟩) same

/-- If no source file in a directory was left out, the directory lists the same source files with the
same contents. -/
theorem sameFiles_without (sorted : ListsAscending base) (present : base.listing dir ≠ .error .notFound)
    (inside : ∀ p ∈ entriesBelow base dir, LiesIn dir p)
    (kept : ∀ entries, base.listing dir = .ok entries → ∀ key ∈ overlay.keys, LiesIn dir key →
      key.fileName?.any isSourceFile = true → drop key = false) :
    SameFiles (overlay.inFrontOf base) ((without overlay drop).inFrontOf base) dir := by
  cases lists : base.listing dir with
  | error cause =>
    have other : cause ≠ .notFound := fun missing => present (missing ▸ lists)
    have fails (overlay : Overlay) : (overlay.inFrontOf base).packageFiles dir = .error cause :=
      packageFiles_eq_error_iff.mpr (listing_of_failed lists other)
    constructor
    · rw [fails, fails]
    · intro files listed
      rw [fails] at listed
      cases listed
  | ok entries =>
    have kept := kept entries lists
    have listed (overlay : Overlay) : (overlay.inFrontOf base).packageFiles dir = .ok _ :=
      packageFiles_eq_ok_iff.mpr ⟨_, listing_of_listed lists, rfl⟩
    constructor
    · rw [listed, listed]
      refine congrArg Except.ok ((packageFiles_ascending sorted (listed _)).ext
        (packageFiles_ascending sorted (listed _)) fun p => ?_)
      rw [mem_packageFiles_iff (listed _), mem_packageFiles_iff (listed _), mem_keys_without]
      constructor
      · rintro ⟨entry | ⟨⟨member, -⟩, new⟩, source⟩
        · exact ⟨Or.inl entry, source⟩
        · exact ⟨Or.inr ⟨member, new⟩, source⟩
      · rintro ⟨entry | ⟨member, new⟩, source⟩
        · exact ⟨Or.inl entry, source⟩
        · exact ⟨Or.inr ⟨⟨member, kept p member new.1 source.1⟩, new⟩, source⟩
    · intro files found file member
      obtain ⟨origin, source⟩ := (mem_packageFiles_iff found).mp member
      have own : LiesIn dir file := origin.elim (inside file) fun ⟨_, there, _⟩ => there
      have same : (without overlay drop).get? file = overlay.get? file := by
        refine get?_without fun key held spells => kept key held ((liesIn_congr rfl spells).mpr own) ?_
        rw [fileName?_congr spells]
        exact source.1
      simp only [Overlay.inFrontOf, same]

end Without

/-! ## Directories -/

section Directories

variable {disk : Disk} {dir root p : Path}

/-- What a directory lists lies in it. -/
theorem listed_inside (named : Named (.directory disk.root))
    (member : p ∈ entriesBelow disk.fileSystem dir) : LiesIn dir p := by
  obtain ⟨location, entries, opens, e, own, rfl⟩ := mem_entriesBelow_disk.mp member
  obtain ⟨leads, -, -⟩ := opened_eq_ok_iff.mp opens
  rw [liesIn_iff, child_components dir (entry_name named (stat_of_opened opens) own)]
  rcases List.eq_nil_or_concat' dir.components with none | ⟨front, last, parts⟩
  · exact absurd none (components_filled (resolve_walks leads).1)
  · rw [parts, above?_concat]

/-- A real directory below another one is not missing, though its path may be too long or it may refuse
to be listed. -/
theorem real_present {names location : List String} {entries inner : Entries}
    (leads : disk.resolve {} p = .ok location)
    (stands : disk.node? location = some (.directory entries)) (valid : ∀ name ∈ names, IsName name)
    (real : (Node.directory entries).at? names = some (.directory inner)) :
    disk.listing (descend p names) ≠ .error .notFound := by
  rw [listing_eq]
  rcases resolve_real leads stands valid real with arrives | ⟨cause, refused, other⟩
  · simp only [arrives, node?_append stands real]
    split <;> simp
  · simpa only [refused, ne_eq, Except.error.injEq] using other

/-- A walk only comes to directories at and below where it starts. -/
theorem moduleDirs_below (named : Named (.directory disk.root)) {dirs : List Path}
    (walks : disk.moduleDirs root = .ok dirs) (member : dir ∈ dirs) :
    root.text.toList ≠ [] ∧ ∃ names, (∀ name ∈ names, IsName name) ∧ descend root names = dir := by
  cases lists : disk.listing root with
  | error cause =>
    rw [moduleDirs, lists] at walks
    cases walks
  | ok listed =>
    obtain ⟨location, entries, opens, -⟩ := listing_eq_ok_iff.mp lists
    obtain ⟨leads, -, open'⟩ := opened_eq_ok_iff.mp opens
    have whole := stat_of_opened opens
    obtain ⟨ordered, proper⟩ := found_proper named whole
    have valid := walked_names disk.refuses location ordered proper
    have inside {names : List (List String)} (walked : disk.directories root = names.map (descend root))
        (part : names ⊆ namesFrom disk.refuses location (.directory entries)) :
        ∃ names, (∀ name ∈ names, IsName name) ∧ descend root names = dir := by
      rw [moduleDirs_walked opens walked, Except.ok.injEq] at walks
      obtain ⟨names, held, same⟩ := List.mem_map.mp (walks ▸ member)
      exact ⟨names, valid names (part (mem_holding.mp held).1), same⟩
    refine ⟨(resolve_walks leads).1, ?_⟩
    rcases stat_unfollowed whole with directory | ⟨target, link⟩
    · exact inside (directories_real opens directory) (List.Subset.refl _)
    · refine inside (directories_linked opens link) ?_
      rw [namesFrom, open', if_neg Bool.false_ne_true]
      exact List.subset_cons_self _ _

end Directories

/-! ## Candidates -/

section Candidates

variable {disk : Disk} {fs fs' : FileSystem} {asked : Bool} {dir : Path}

theorem moduleCandidate_congr {listed : Package} (same : SameSources fs fs' listed)
    (plain : listed.isExternalTest = false) :
    moduleCandidate fs' asked listed plain = moduleCandidate fs asked listed plain := by
  simp only [moduleCandidate, resolveWithTests_congr same]

/-- A module directory with the same source files is on offer with the same packages. -/
theorem directoryCandidate?_congr
    (alike : ∀ x, disk.moduleOf dir = .ok x → SameFiles fs fs' dir) :
    directoryCandidate? disk fs' asked dir = directoryCandidate? disk fs asked dir := by
  -- The candidates carry proofs about what is listed, so that is left open at first.
  have offers {listed listed' : Option Package} (same : listed' = listed)
      (sources : ∀ p, listed = some p → SameSources fs fs' p)
      (plain : ∀ p, listed = some p → p.isExternalTest = false)
      (plain' : ∀ p, listed' = some p → p.isExternalTest = false) :
      listed'.pmap (moduleCandidate fs' asked) plain' =
        listed.pmap (moduleCandidate fs asked) plain := by
    subst same
    cases listed' with
    | none => rfl
    | some p => exact congrArg some (moduleCandidate_congr (sources p rfl) _)
  unfold directoryCandidate?
  cases reads : disk.moduleOf dir with
  | error cause => rfl
  | ok x =>
    obtain ⟨file, d⟩ := x
    have same := alike _ reads
    exact offers (listedPackage?_congr same file d)
      (fun p found => listedPackage?_sources same file d found) _ _

theorem treeCandidates_congr {root : Path} (alike : ∀ dirs, disk.moduleDirs root = .ok dirs →
    ∀ dir ∈ dirs, ∀ x, disk.moduleOf dir = .ok x → SameFiles fs fs' dir) :
    treeCandidates disk fs' asked root = treeCandidates disk fs asked root := by
  unfold treeCandidates
  cases walks : disk.moduleDirs root with
  | error cause => rfl
  | ok dirs =>
    exact List.filterMap_congr fun dir member => directoryCandidate?_congr (alike dirs walks dir member)

theorem libraryCandidates_congr {settings : Settings} (dirs : fs'.isDir = fs.isDir)
    (alike : ∀ roots, settings.root?.map LibraryRoots.within = some roots →
      fs.isDir roots.packages = true → libraryPackages disk fs' roots = libraryPackages disk fs roots) :
    libraryCandidates disk fs' settings = libraryCandidates disk fs settings := by
  have offers {packages packages' : List Package} (same : packages' = packages)
      (plain : ∀ p ∈ packages, p.isExternalTest = false)
      (plain' : ∀ p ∈ packages', p.isExternalTest = false) :
      packages'.pmap libraryCandidate plain' = packages.pmap libraryCandidate plain := by
    subst same
    rfl
  unfold libraryCandidates
  cases home : settings.root?.map LibraryRoots.within with
  | none => rfl
  | some roots =>
    simp only [dirs]
    split
    · exact offers (alike roots home ‹_›) _ _
    · rfl

end Candidates

/-! ## Loads -/

/-- The directories whose trees a load looks for packages in. Patterns behind one at fault are not
walked. -/
inductive Walked (disk : Disk) (settings : Settings) (patterns : List String) : Path → Prop where
  | pattern {before after : List String} {raw : String} {root : Path}
      (asked : patterns = before ++ raw :: after)
      (sound : ∀ other ∈ before, patternFault? disk settings other = none)
      (walks : walkedTree? settings raw = some root) : Walked disk settings patterns root
  | library {root : Path} (home : settings.root? = some root) :
      Walked disk settings patterns (LibraryRoots.within root).packages
  | tests {root : Path} (home : settings.root? = some root) :
      Walked disk settings patterns (LibraryRoots.within root).tests
  | examples {root : Path} (home : settings.root? = some root) :
      Walked disk settings patterns (root.child "examples")

/-- The directory is the root, or names lead from the root to it. -/
def AtOrBelow (root dir : Path) : Prop :=
  ∃ names : List String, dir.components = root.components ++ names.map .name

/-- The path is named like a source file and lies in a directory at or below one that is walked. -/
def Relevant (disk : Disk) (settings : Settings) (patterns : List String) (key : Path) : Prop :=
  key.fileName?.any isSourceFile = true ∧ ∃ root dir, Walked disk settings patterns root ∧
    AtOrBelow root dir ∧ disk.isDir dir = true ∧ LiesIn dir key

section Loads

variable {disk : Disk} {settings : Settings} {overlay : Overlay} {patterns : List String}
variable {drop : Path → Bool} {root dir : Path} (named : Named (.directory disk.root))
  (irrelevant : ∀ key ∈ overlay.keys, drop key = true → ¬ Relevant disk settings patterns key)
include named irrelevant

theorem sameFiles_walked (walked : Walked disk settings patterns root) (below : AtOrBelow root dir)
    (present : disk.listing dir ≠ .error .notFound) :
    SameFiles (overlay.inFrontOf disk.fileSystem) ((without overlay drop).inFrontOf disk.fileSystem)
      dir := by
  refine sameFiles_without (disk_listsAscending named) present (fun p => listed_inside named) ?_
  intro listed lists key member inside source
  obtain ⟨location, entries, opens, -⟩ := listing_eq_ok_iff.mp lists
  have isDir : disk.isDir dir = true := isDir_iff_stat.mpr ⟨entries, stat_of_opened opens⟩
  rw [← Bool.not_eq_true]
  exact fun out => irrelevant key member out ⟨source, root, dir, walked, below, isDir, inside⟩

theorem sameFiles_directory (walked : Walked disk settings patterns root) (below : AtOrBelow root dir)
    (isDir : disk.isDir dir = true) :
    SameFiles (overlay.inFrontOf disk.fileSystem) ((without overlay drop).inFrontOf disk.fileSystem)
      dir := by
  obtain ⟨entries, whole⟩ := isDir_iff_stat.mp isDir
  obtain ⟨location, leads, stands⟩ := stat_eq_ok_iff.mp whole
  have present : disk.listing (descend dir []) ≠ .error .notFound :=
    real_present leads stands (by simp) rfl
  exact sameFiles_walked named irrelevant walked below present

/-- The modules of a tree that is walked are on offer with the same packages. -/
theorem treeCandidates_without (asked : Bool) (walked : Walked disk settings patterns root) :
    treeCandidates disk ((without overlay drop).inFrontOf disk.fileSystem) asked root =
      treeCandidates disk (overlay.inFrontOf disk.fileSystem) asked root := by
  refine treeCandidates_congr fun dirs walks dir member x reads => ?_
  obtain ⟨filled, names, valid, rfl⟩ := moduleDirs_below named walks member
  obtain ⟨entries, whole⟩ := FileQueries.stat_of_moduleOf (descend_steps filled valid).1 reads
  exact sameFiles_directory named irrelevant walked ⟨names, descend_components root valid⟩
    (isDir_iff_stat.mpr ⟨entries, whole⟩)

/-- The library has the same packages. -/
theorem libraryPackages_without {home : Path} (root : settings.root? = some home) :
    libraryPackages disk ((without overlay drop).inFrontOf disk.fileSystem) (.within home) =
      libraryPackages disk (overlay.inFrontOf disk.fileSystem) (.within home) := by
  unfold libraryPackages
  rw [directoriesBelow_library]
  refine List.filterMap_congr fun dir member => ?_
  obtain ⟨names, listed, rfl⟩ := List.mem_map.mp member
  have valid := libraryNames_valid named _ names listed
  obtain ⟨some, location, entries, inner, opens, real, -⟩ := mem_libraryNames.mp listed
  obtain ⟨leads, stands, -⟩ := opened_eq_ok_iff.mp opens
  refine libraryPackage?_congr (funext fun _ => rfl) ?_ ?_
  · exact sameFiles_walked named irrelevant (.library root) ⟨names, descend_components _ valid⟩
      (real_present leads stands valid real)
  · intro path place isDir
    rw [libraryPath?_descend _ valid, Option.some.injEq] at place
    subst place
    exact sameFiles_directory named irrelevant (.tests root)
      ⟨names, child_intercalate (child_filled _ (by decide)) some valid⟩ isDir

theorem exampleCandidates_without :
    exampleCandidates disk ((without overlay drop).inFrontOf disk.fileSystem) settings =
      exampleCandidates disk (overlay.inFrontOf disk.fileSystem) settings := by
  unfold exampleCandidates
  cases home : settings.root? with
  | none => rfl
  | some root => simp only [Option.map_some, treeCandidates_without named irrelevant _ (.examples home)]

theorem libraryCandidates_without :
    libraryCandidates disk ((without overlay drop).inFrontOf disk.fileSystem) settings =
      libraryCandidates disk (overlay.inFrontOf disk.fileSystem) settings := by
  refine libraryCandidates_congr rfl fun roots within _ => ?_
  obtain ⟨home, root, rfl⟩ := Option.map_eq_some_iff.mp within
  exact libraryPackages_without named irrelevant root

/-- A pattern finds the same if its tree is among those that are walked. -/
theorem consult_without {raw : String}
    (walked : ∀ root, walkedTree? settings raw = some root → Walked disk settings patterns root)
    (g : PackageGraph) :
    consult disk ((without overlay drop).inFrontOf disk.fileSystem) settings g raw =
      consult disk (overlay.inFrontOf disk.fileSystem) settings g raw := by
  unfold consult
  unfold walkedTree? at walked
  cases read : Pattern.read raw settings.workingDir with
  | builtin => rfl
  | dir root =>
    simp only [read] at walked
    simp only [treeCandidates_without named irrelevant true (walked root rfl)]
  | file file =>
    simp only [read] at walked
    simp only [treeCandidates_without named irrelevant true (walked _ rfl)]

end Loads

/-- A load has the same outcome when overlaid files are left out of which each is not named like a
source file or lies in no directory at or below one that is walked. -/
theorem load_without_irrelevant {disk : Disk} (named : Named (.directory disk.root))
    {settings : Settings} {overlay : Overlay} {patterns : List String} {drop : Path → Bool}
    (irrelevant : ∀ key ∈ overlay.keys, drop key = true → ¬ Relevant disk settings patterns key) :
    load disk settings (without overlay drop) patterns = load disk settings overlay patterns := by
  rw [load_eq, load_eq]
  cases faults : patterns.findSome? (patternFault? disk settings) with
  | some e => rw [settle_some, settle_some]
  | none =>
    -- Without a fault, all patterns are walked.
    have sound := List.findSome?_eq_none_iff.mp faults
    have asked (g : PackageGraph) (raw : String) (given : raw ∈ patterns) :
        consult disk ((without overlay drop).inFrontOf disk.fileSystem) settings g raw =
          consult disk (overlay.inFrontOf disk.fileSystem) settings g raw := by
      obtain ⟨before, after, parts⟩ := List.append_of_mem given
      refine consult_without named irrelevant (fun root walks => ?_) g
      exact .pattern parts (fun other early => sound other (parts ▸ List.mem_append_left _ early)) walks
    have gathers : gathered disk settings (without overlay drop) patterns =
        gathered disk settings overlay patterns := by
      unfold gathered consulted
      simp only [libraryCandidates_without named irrelevant, exampleCandidates_without named irrelevant]
      rw [List.foldl_ext _ _ _ asked]
    rw [gathers]

/-- A module, and a directory next to it. -/
def draftedDisk : Disk where
  root := [("other", .directory []), ("w", .directory [
    ("a.gno", .file (Text.utf8Bytes "package a\n")),
    ("gno.mod", .file (Text.utf8Bytes "module a\n"))])]
  ordered := by decide
  workingDir := []

/-- Unsaved files: a source file of the module, a text, and source files in a directory that is not
walked and in one that is missing. -/
def drafts : Overlay :=
  .ofList [(⟨"/other/c.gno"⟩, []), (⟨"/w/README.md"⟩, []), (⟨"/w/b.gno"⟩, Text.utf8Bytes "package a\n"),
    (⟨"/w/gone/d.gno"⟩, [])]

/-- All of them but the source file of the module. -/
def unasked (key : Path) : Bool :=
  key ≠ ⟨"/w/b.gno"⟩

/-- Only the module is walked. -/
theorem drafts_root {root : Path} (walked : Walked draftedDisk sampleSettings ["/w"] root) :
    root = ⟨"/w"⟩ := by
  cases walked with
  | @pattern before after raw root asked _ walks =>
    cases before with
    | nil =>
      cases asked
      have own : walkedTree? sampleSettings "/w" = some ⟨"/w"⟩ := by decide +kernel
      exact (Option.some.inj (own.symm.trans walks)).symm
    | cons other before => simp at asked
  | library home => cases home
  | tests home => cases home
  | examples home => cases home

theorem load_without_drafts :
    (without drafts unasked).keys = [⟨"/w/b.gno"⟩] ∧
    load draftedDisk sampleSettings (without drafts unasked) ["/w"] =
      load draftedDisk sampleSettings drafts ["/w"] := by
  have named : Named (.directory draftedDisk.root) := by decide +kernel
  have keys : drafts.keys = [⟨"/other/c.gno"⟩, ⟨"/w/README.md"⟩, ⟨"/w/b.gno"⟩, ⟨"/w/gone/d.gno"⟩] := by
    decide +kernel
  refine ⟨by decide +kernel, load_without_irrelevant named fun key member out => ?_⟩
  rintro ⟨source, root, dir, walked, ⟨names, below⟩, isDir, inside⟩
  rw [drafts_root walked] at below
  rw [liesIn_iff] at inside
  simp only [keys, List.mem_cons, List.not_mem_nil, or_false] at member
  rcases member with rfl | rfl | rfl | rfl
  · have parts : above? (Path.mk "/other/c.gno").components = some [.root, .name "other"] := by
      decide +kernel
    have home : (Path.mk "/w").components = [.root, .name "w"] := by decide +kernel
    rw [below, parts, home] at inside
    simp at inside
  · exact absurd source (by decide +kernel)
  · exact absurd out (by decide)
  · have parts : above? (Path.mk "/w/gone/d.gno").components =
        some [.root, .name "w", .name "gone"] := by
      decide +kernel
    have spelled : dir.components = [.root, .name "w", .name "gone"] :=
      (Option.some.inj (parts.symm.trans inside)).symm
    have gone := FileQueries.isDir_normal (isAbsolute_of_components spelled) isDir
    rw [spelled] at gone
    exact absurd gone (by decide +kernel)

end PackageLoader.UnreadOverlays
