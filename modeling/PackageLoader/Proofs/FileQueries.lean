import PackageLoader.Proofs.BuiltinPath
import PackageLoader.Proofs.DirectoryWalk
import PackageLoader.Proofs.ImportEdges
import PackageLoader.Proofs.NormalResolution
import PackageLoader.Proofs.OverlaidAlike
import PackageLoader.Proofs.RedundantPatterns
import PackageLoader.Proofs.SourceListings

/-! Queries for one file. The directory of the file is walked, and its module is among what is found
unless its path is taken. A module found before in the same directory, however its path is spelled,
lists the same files, so the file is among those of the module or of its external tests. -/
namespace PackageLoader.FileQueries
open BuiltinPath DirectoryWalk Disk ExternalTests FirstDiscovery LinkFreeDisk Linking Offers
open OverlaidAlike OverlayOnDisk PathNormalForm PathSpellings PatternOrder PatternRuns
open NormalResolution Separation Subdirectories TableLaws
open SourceListings (disk_listsAscending mem_entriesBelow_disk mem_listing_iff packageFiles_ascending)

/-! ## Listings -/

section Listings

variable {disk : Disk} {overlay : Overlay} {dir d : Path} {entries : Entries}

/-- What a directory lists is on disk, or it is overlaid and has no counterpart on disk. -/
theorem mem_listing {files : List Path}
    (listed : (overlay.inFrontOf disk.fileSystem).listing dir = .ok files)
    {file : Path} (member : file ∈ files) :
    (∃ location entries, disk.opened dir = .ok (location, entries) ∧
      ∃ e ∈ entries, dir.child e.1 = file) ∨
      file ∈ overlay.entriesOf dir ∧ ∀ location entries, disk.opened dir = .ok (location, entries) →
        ∀ e ∈ entries, (dir.child e.1).components ≠ file.components := by
  rcases (mem_listing_iff listed).mp member with entry | ⟨key, inside, new⟩
  · exact Or.inl (mem_entriesBelow_disk.mp entry)
  · refine Or.inr ⟨OverlayListings.mem_entriesOf.mpr ⟨key, inside⟩,
      fun location entries opens e own same => ?_⟩
    exact new ⟨_, mem_entriesBelow_disk.mpr ⟨location, entries, opens, e, own, rfl⟩, same⟩

theorem mem_sources {fs : FileSystem} {file : Path} : file ∈ sourcesIn fs dir ↔
    ∃ files, fs.listing dir = .ok files ∧ file ∈ files ∧
      file.fileName?.any isSourceFile = true ∧ fs.isDir file = false := by
  unfold sourcesIn FileSystem.packageFiles
  cases fs.listing dir with
  | error cause => simp [Except.map, Except.toOption]
  | ok files => simp [Except.map, Except.toOption]

/-- The source files of a directory are told apart by their components. -/
theorem source_unique (named : Named (.directory disk.root)) {a b : Path}
    (first : a ∈ sourcesIn (overlay.inFrontOf disk.fileSystem) dir)
    (second : b ∈ sourcesIn (overlay.inFrontOf disk.fileSystem) dir)
    (same : a.components = b.components) : a = b := by
  unfold sourcesIn at first second
  cases lists : (overlay.inFrontOf disk.fileSystem).packageFiles dir with
  | error cause =>
    rw [lists] at first
    cases first
  | ok files =>
    rw [lists] at first second
    exact (packageFiles_ascending (disk_listsAscending named) lists).unique first second same

/-! ## Another spelling -/

/-- A directory with a readable descriptor is one. -/
theorem stat_of_moduleOf (filled : dir.text.toList ≠ []) {x : Path × Descriptor}
    (reads : disk.moduleOf dir = .ok x) : ∃ entries, disk.stat {} dir = .ok (.directory entries) := by
  unfold Disk.moduleOf at reads
  split at reads
  · cases reads
  · rename_i file found
    obtain ⟨name, descriptor, rfl⟩ := List.mem_map.mp (List.mem_of_find?_eq_some found)
    obtain ⟨bytes, stands⟩ := isFile_iff_stat.mp (List.find?_some found)
    exact stat_above_child filled (isName_descriptor descriptor) stands

theorem stat_normal (absolute : dir.isAbsolute = true) {node : Node}
    (found : disk.stat {} dir = .ok node) :
    disk.stat {} (.ofComponents dir.components) = .ok node := by
  obtain ⟨location, leads, stands⟩ := stat_eq_ok_iff.mp found
  exact stat_eq_ok_iff.mpr ⟨location, resolve_normal absolute leads, stands⟩

theorem isDir_normal (absolute : dir.isAbsolute = true) (isDir : disk.isDir dir = true) :
    disk.isDir (.ofComponents dir.components) = true := by
  unfold Disk.isDir at isDir ⊢
  split at isDir
  · rename_i entries found
    rw [stat_normal absolute found]
  · cases isDir

/-- A directory can be opened if its normal form can be listed, with an overlay in front. -/
theorem opened_of_listed (absolute : dir.isAbsolute = true) {entries : Entries} {files : List Path}
    (whole : disk.stat {} dir = .ok (.directory entries))
    (listed : (overlay.inFrontOf disk.fileSystem).listing (.ofComponents dir.components) = .ok files) :
    ∃ location, disk.opened dir = .ok (location, entries) ∧
      disk.opened (.ofComponents dir.components) = .ok (location, entries) := by
  obtain ⟨location, leads, stands⟩ := stat_eq_ok_iff.mp whole
  have leads' := resolve_normal absolute leads
  cases refused : disk.refuses location with
  | false =>
    exact ⟨location, opened_eq_ok_iff.mpr ⟨leads, stands, refused⟩,
      opened_eq_ok_iff.mpr ⟨leads', stands, refused⟩⟩
  | true =>
    have closed : disk.fileSystem.listing (.ofComponents dir.components) = .error .permissionDenied := by
      simp [fileSystem, listing_eq, leads', stands, refused]
    cases (OverlayListings.listing_of_failed closed (by decide)).symm.trans listed

/-- A directory lists the source files that it lists under its normal form, as long as its descriptor
is read. -/
theorem source_respelled (named : Named (.directory disk.root)) (absolute : dir.isAbsolute = true)
    {x : Path × Descriptor} (reads : disk.moduleOf dir = .ok x) {file : Path}
    (member : file ∈ sourcesIn (overlay.inFrontOf disk.fileSystem) (.ofComponents dir.components)) :
    ∃ file' ∈ sourcesIn (overlay.inFrontOf disk.fileSystem) dir,
      file'.components = file.components := by
  have filled := filled_of_isAbsolute absolute
  obtain ⟨entries, whole⟩ := stat_of_moduleOf filled reads
  obtain ⟨files, listed, inside, source, noDir⟩ := mem_sources.mp member
  obtain ⟨location, opens, opens'⟩ := opened_of_listed absolute whole listed
  have components : (Path.ofComponents dir.components).components = dir.components := by
    obtain ⟨cs, inner, parts⟩ := absolute_components absolute
    rw [parts, components_ofComponents inner]
  have spelled {e : String × Node} (listed : e ∈ entries) :
      (dir.child e.1).components = ((Path.ofComponents dir.components).child e.1).components := by
    have name := entry_name named whole listed
    rw [child_components _ name, child_components _ name, components]
  have lists : (overlay.inFrontOf disk.fileSystem).listing dir = .ok _ := listing_directory opens
  rcases mem_listing listed inside with ⟨location', entries', found, e, own, rfl⟩ | ⟨overlaid, new⟩
  · cases opens'.symm.trans found
    have name := entry_name named whole own
    refine ⟨dir.child e.1, mem_sources.mpr ⟨_, lists, ?_, ?_, ?_⟩, spelled own⟩
    · rw [(sortPaths_perm _).mem_iff]
      exact List.mem_append_left _ (List.mem_map_of_mem own)
    · rwa [child_fileName? _ name] at source ⊢
    · -- A directory at the longer spelling is one at the shorter spelling.
      rw [← Bool.not_eq_true]
      intro isDir
      have there := isDir_normal ((child_isAbsolute filled name.toIsSegment).trans absolute) isDir
      rw [child_components dir name, ofComponents_concat] at there
      exact absurd there (by rw [Bool.not_eq_true]; exact noDir)
  · have seen : overlay.entriesOf dir = overlay.entriesOf (.ofComponents dir.components) := by
      simp only [Overlay.entriesOf, Path.same, components]
    refine ⟨file, mem_sources.mpr ⟨_, lists, ?_, source, noDir⟩, rfl⟩
    rw [(sortPaths_perm _).mem_iff]
    refine List.mem_append_right _ (List.mem_filter.mpr ⟨seen ▸ overlaid, ?_⟩)
    rw [Bool.not_eq_true', List.any_eq_false]
    intro known onDisk same
    obtain ⟨e, own, rfl⟩ := List.mem_map.mp onDisk
    exact new location entries opens' e own ((spelled own).symm.trans (same_iff.mp same))

end Listings

/-! ## Candidates -/

/-- The package is that of the module in a directory. -/
def IsModuleIn (d : Path) (p : Package) : Prop :=
  p.origin = .workspace ∧ p.module?.any (·.dir.same d) = true

instance (d : Path) (p : Package) : Decidable (IsModuleIn d p) :=
  inferInstanceAs (Decidable (_ ∧ _))

/-- The file is among the sources of the directory that it lies in. The directory is no link, and its
descriptor declares a module. -/
structure SourceOf (disk : Disk) (overlay : Overlay) (f d : Path) (m : Descriptor) : Prop where
  above : f.parent? = some d
  real : ∃ entries, disk.stat { followLast := false } d = .ok (.directory entries)
  declares : ∃ descriptor, disk.moduleOf d = .ok (descriptor, m)
  listed : ∃ file ∈ sourcesIn (overlay.inFrontOf disk.fileSystem) d, file.same f = true

section Candidates

variable {disk : Disk} {settings : Settings} {overlay : Overlay} {before after : List String}
  {raw : String} {f d : Path} {m : Descriptor}

/-- What patterns offer is asked for. -/
theorem patternCandidates_asked {fs : FileSystem} {c : Candidate}
    (member : c ∈ patternCandidates disk fs settings raw) : c.asked = true := by
  unfold patternCandidates at member
  split at member
  · rw [List.mem_singleton.mp member]
    rfl
  · exact treeCandidates_asked member
  · exact treeCandidates_asked member

/-- The walk of a directory with a descriptor starts at the directory itself, unless it is a link. -/
theorem moduleDirs_self {entries : Entries} {files : List Path} {x : Path × Descriptor}
    (real : disk.stat { followLast := false } d = .ok (.directory entries))
    (reads : disk.moduleOf d = .ok x) (lists : disk.moduleDirs d = .ok files) :
    ∃ below, files = d :: below := by
  have described : (disk.descriptorIn d).isSome = true := by
    unfold Disk.moduleOf at reads
    split at reads
    · cases reads
    · rename_i found
      rw [found]
      rfl
  unfold Disk.moduleDirs at lists
  split at lists
  · cases lists
  · cases lists
    rw [Disk.directories, real]
    exact ⟨_, List.filter_cons_of_pos described⟩

/-- A directory with a source file has a package. -/
theorem listedPackage?_of_mem {fs : FileSystem} {file : Path} (member : file ∈ sourcesIn fs d)
    (descriptor : Path) (m : Descriptor) : ∃ p, fs.listedPackage? d descriptor m = some p := by
  unfold sourcesIn at member
  unfold FileSystem.listedPackage?
  split
  · rename_i none
    rw [none] at member
    cases member
  · exact ⟨_, rfl⟩
  · exact ⟨_, rfl⟩

/-- A pattern for a file offers the module of its directory first. -/
theorem query_offers (asks : Pattern.read raw settings.workingDir = .file f)
    (source : SourceOf disk overlay f d m) (sound : patternFault? disk settings raw = none) :
    ∃ c rest, patternCandidates disk (overlay.inFrontOf disk.fileSystem) settings raw = c :: rest ∧
      c.path = m.module ∧ IsModuleIn d c.package := by
  obtain ⟨entries, real⟩ := source.real
  obtain ⟨descriptor, declares⟩ := source.declares
  obtain ⟨file, member, -⟩ := source.listed
  obtain ⟨files, lists⟩ : ∃ files, disk.moduleDirs d = .ok files := by
    cases walks : disk.moduleDirs d with
    | ok files => exact ⟨files, rfl⟩
    | error cause => simp [patternFault?, asks, source.above, treeFault?, walks] at sound
  obtain ⟨below, rfl⟩ := moduleDirs_self real declares lists
  obtain ⟨listed, found⟩ := listedPackage?_of_mem member descriptor m
  obtain ⟨origin, path, -⟩ := listed_package_fields found
  obtain ⟨-, -, home, -⟩ := listed_package_sources found
  have offers := directoryCandidate?_of_listed true declares found
  have plain := listed_package_plain (overlay.inFrontOf disk.fileSystem) d descriptor m listed found
  refine ⟨moduleCandidate (overlay.inFrontOf disk.fileSystem) true listed plain,
    below.filterMap (directoryCandidate? disk (overlay.inFrontOf disk.fileSystem) true),
    ?_, path, origin, ?_⟩
  · simp only [patternCandidates, asks, source.above, Option.getD_some, treeCandidates, lists]
    exact List.filterMap_cons_some offers
  · have own := (resolveWithTests_module? listed (overlay.inFrontOf disk.fileSystem)).1
    show (listed.resolveWithTests _).1.module?.any _ = true
    rw [own, home]
    exact same_iff.mpr rfl

/-- The module that a workspace candidate names has a readable descriptor. -/
theorem moduleOf_of_candidate {patterns : List String} {c : Candidate} {home : Module}
    (given : c ∈ candidates disk settings overlay patterns) (workspace : c.package.origin = .workspace)
    (named : c.package.module? = some home) : ∃ x, disk.moduleOf home.dir = .ok x := by
  cases candidate_offered given with
  | library plain place below found =>
    cases (library_package_fields found).1.symm.trans workspace
  | builtin given => cases workspace
  | @module dir file declared listed asked plain read found =>
    obtain ⟨-, -, own, -⟩ := listed_package_sources found
    have kept := (resolveWithTests_module? listed (overlay.inFrontOf disk.fileSystem)).1
    have same : some home = some ⟨declared.module, dir, file⟩ := named.symm.trans (kept.trans own)
    cases same
    exact ⟨_, read⟩

/-- Without examples, the candidates are those of the library and of the patterns. -/
theorem candidates_bare (disk : Disk) (settings : Settings) (overlay : Overlay)
    (patterns : List String) :
    candidates disk { settings with withExamples := false } overlay patterns =
      libraryCandidates disk (overlay.inFrontOf disk.fileSystem) settings ++
        patterns.flatMap (patternCandidates disk (overlay.inFrontOf disk.fileSystem) settings) := by
  have none : exampleCandidates disk (overlay.inFrontOf disk.fileSystem)
      { settings with withExamples := false } = [] := by
    unfold exampleCandidates
    split <;> rfl
  rw [candidates, none, List.append_nil]
  rfl

/-- Whoever has the path of the module is the module of the directory, and it was asked for. -/
theorem query_winner (asks : Pattern.read raw settings.workingDir = .file f)
    (source : SourceOf disk overlay f d m)
    (sound : ∀ raw' ∈ before ++ raw :: after, patternFault? disk settings raw' = none)
    (first : ∀ g, discover disk { settings with withExamples := false } overlay before = .ok g →
      ∀ p ∈ g.packages, p.isExternalTest = false → p.path = m.module → IsModuleIn d p) :
    ∃ c ∈ firsts (candidates disk settings overlay (before ++ raw :: after)),
      c.asked = true ∧ c.path = m.module ∧ IsModuleIn d c.package := by
  let fs := overlay.inFrontOf disk.fileSystem
  let early := libraryCandidates disk fs settings ++ before.flatMap (patternCandidates disk fs settings)
  have soundBefore : ∀ raw ∈ before, patternFault? disk settings raw = none :=
    fun raw given => sound raw (List.mem_append_left _ given)
  obtain ⟨own, rest, offers, path, module⟩ := query_offers asks source (sound raw (by simp))
  have ownAsked : own.asked = true :=
    patternCandidates_asked (by rw [offers]; exact List.mem_cons_self ..)
  obtain ⟨more, parted⟩ : ∃ more,
      candidates disk settings overlay (before ++ raw :: after) = early ++ own :: more := by
    refine ⟨rest ++ after.flatMap (patternCandidates disk fs settings) ++
      exampleCandidates disk fs settings, ?_⟩
    simp [candidates, early, fs, List.flatMap_append, offers]
  by_cases taken : ∃ c ∈ early, c.path = m.module
  · obtain ⟨c, member, claims⟩ := taken
    obtain ⟨holder, kept, same⟩ := exists_first member
    have path : holder.path = m.module := same.trans claims
    have found : IsModuleIn d holder.package := by
      have reflects := RedundantPatterns.consulted_reflects overlay soundBefore
      have ran : discover disk { settings with withExamples := false } overlay before =
          .ok (consulted disk settings overlay before) := by
        rw [discover_eq, LaterDiscovery.gathered_bare]
        exact settle_eq_ok_iff.mpr ⟨List.findSome?_eq_none_iff.mpr soundBefore, rfl⟩
      refine first _ ran _ ?_ holder.plain path
      rw [reflects.packages, candidates_bare]
      exact List.mem_flatMap.mpr ⟨holder, kept, List.mem_cons_self ..⟩
    refine ⟨holder, ?_, ?_, path, found⟩
    · rw [parted, mem_firsts_append]
      exact Or.inl kept
    · rcases List.mem_append.mp (mem_of_mem_firsts kept) with library | asked
      · obtain ⟨roots, p, plain, -, -, inside, rfl⟩ := mem_libraryCandidates.mp library
        obtain ⟨dir, -, offered⟩ := List.mem_filterMap.mp inside
        cases (library_package_fields offered).1.symm.trans found.1
      · obtain ⟨raw', -, offered⟩ := List.mem_flatMap.mp asked
        exact patternCandidates_asked offered
  · refine ⟨own, ?_, ownAsked, path, module⟩
    rw [parted, mem_firsts_append]
    refine Or.inr ⟨?_, fun other member same => taken ⟨other, member, same.trans path⟩⟩
    rw [firsts_cons]
    exact List.mem_cons_self ..

end Candidates

/-! ## Responses -/

/-- The package lists the file. -/
def Lists (p : Package) (f : Path) : Prop :=
  ∃ file ∈ p.files, file.same f = true

section Responses

variable {disk : Disk} {settings : Settings} {overlay : Overlay} {patterns : List String}
  {raw : String} {f d dir : Path}

/-- A file that a pattern asks for by an absolute path lies in a directory in normal form. -/
theorem query_directory (asks : Pattern.read raw settings.workingDir = .file f)
    (absolute : f.isAbsolute = true) (above : f.parent? = some d) :
    ∃ cs, (∀ c ∈ cs, IsInner c) ∧ d = .ofComponents (.root :: cs) := by
  obtain ⟨text, rfl⟩ : ∃ text, settings.workingDir.absolutize text = f := by
    unfold Pattern.read at asks
    simp only at asks
    split at asks
    · exact ⟨_, Pattern.file.inj asks⟩
    · split at asks <;> cases asks
  obtain ⟨cs, inner, normal⟩ := absolutize_absolute absolute
  rw [normal] at above
  rcases List.eq_nil_or_concat' cs with rfl | ⟨front, last, rfl⟩
  · have root : (Path.ofComponents [.root]).parent? = none := by decide +kernel
    rw [root] at above
    cases above
  · have before : ∀ c ∈ front, IsInner c := fun c member => inner c (List.mem_append_left _ member)
    have final := inner last (List.mem_append_right _ (List.mem_singleton_self _))
    rw [ofComponents_parent? before final] at above
    exact ⟨front, before, (Option.some.inj above).symm⟩

/-- A part of the sources of a directory lists a file exactly if it keeps the source of that path. -/
theorem part_lists_iff (named : Named (.directory disk.root)) {file : Path}
    (member : file ∈ sourcesIn (overlay.inFrontOf disk.fileSystem) dir) (same : file.same f = true)
    {p : Package} {keeps : Path → Bool}
    (files : p.files = (sourcesIn (overlay.inFrontOf disk.fileSystem) dir).filter keeps) :
    Lists p f ↔ keeps file = true := by
  unfold Lists
  rw [files]
  constructor
  · rintro ⟨other, kept, alike⟩
    obtain ⟨listed, keep⟩ := List.mem_filter.mp kept
    rwa [source_unique named member listed ((same_iff.mp same).trans (same_iff.mp alike).symm)]
  · exact fun keep => ⟨file, List.mem_filter.mpr ⟨member, keep⟩, same⟩

/-- External tests of a package stand right behind it and nowhere else. -/
theorem tests_behind {g : PackageGraph} {r : Response} {j : Nat} {b x : Package}
    (ran : load disk settings overlay patterns = .ok r)
    (discovered : discover disk settings overlay patterns = .ok g)
    (at_j : (linkPackages g.packages)[j]? = some b) (member : x ∈ linkPackages g.packages)
    (tests : TestsOf b x) : (linkPackages g.packages)[j + 1]? = some x := by
  obtain ⟨i, at_i⟩ := List.mem_iff_getElem?.mp member
  obtain ⟨j', b', rfl, at_j', tests', -⟩ := response_before discovered at_i tests.origin
  have paths : b'.path = b.path := by
    have same := congrArg String.toList (tests'.path.symm.trans tests.path)
    rw [String.toList_append, String.toList_append] at same
    exact String.toList_inj.mp (List.append_cancel_right same)
  have differ := ImportEdges.load_pathsDiffer ran
  obtain ⟨g', discovered', packages, -⟩ := load_eq_discover ran
  rw [discovered, Except.ok.injEq] at discovered'
  subst discovered'
  rw [packages] at differ
  have plain {p : Package} (workspace : p.origin = .workspace) : p.isExternalTest = false := by
    simp [Package.isExternalTest, workspace]
  rwa [position_unique differ at_j at_j' (plain tests.workspace) (plain tests'.workspace) paths.symm]

/-- A file of the directory of a module is listed by the module or by the external tests behind it, and
not by both. -/
theorem lists_once {g : PackageGraph} {r : Response} {j : Nat} {b : Package} {home : Module}
    {file : Path} (named : Named (.directory disk.root))
    (ran : load disk settings overlay patterns = .ok r)
    (discovered : discover disk settings overlay patterns = .ok g)
    (at_j : (linkPackages g.packages)[j]? = some b) (workspace : b.origin = .workspace)
    (own : b.module? = some home)
    (member : file ∈ sourcesIn (overlay.inFrontOf disk.fileSystem) home.dir)
    (same : file.same f = true) :
    Lists b f ∧ (∀ x ∈ linkPackages g.packages, TestsOf b x → ¬ Lists x f) ∨
      ¬ Lists b f ∧ ∃ x, (linkPackages g.packages)[j + 1]? = some x ∧
        (j + 1 ∈ g.roots ↔ j ∈ g.roots) ∧ TestsOf b x ∧ Lists x f := by
  obtain ⟨home', own', files, behind⟩ := response_behind discovered at_j workspace
  obtain rfl : home = home' := Option.some.inj (own.symm.trans own')
  have base := part_lists_iff named member same files
  cases moves : (overlay.inFrontOf disk.fileSystem).isExternalTest file with
  | false =>
    refine Or.inl ⟨base.mpr (by simp [moves]), fun x there tests => ?_⟩
    have next := tests_behind ran discovered at_j there tests
    rcases behind with ⟨x', next', -, moved⟩ | ⟨-, alone⟩
    · cases next.symm.trans next'
      rw [part_lists_iff named member same moved, moves]
      exact Bool.false_ne_true
    · exact absurd tests.origin (alone x next)
  | true =>
    refine Or.inr ⟨fun lists => by simpa [moves] using base.mp lists, ?_⟩
    rcases behind with ⟨x, next, separate, moved⟩ | ⟨none, -⟩
    · obtain ⟨j', b', index, at_j', tests, marks⟩ := response_before discovered next separate
      cases index
      cases at_j.symm.trans at_j'
      exact ⟨x, next, marks, tests, (part_lists_iff named member same moved).mpr moves⟩
    · rw [none file member] at moves
      cases moves

/-- In another spelling of its directory, the file is among the sources as well. -/
theorem source_in_home {m : Descriptor} {home : Path} (named : Named (.directory disk.root))
    (asks : Pattern.read raw settings.workingDir = .file f) (absolute : f.isAbsolute = true)
    (source : SourceOf disk overlay f d m) (place : home.same d = true) {x : Path × Descriptor}
    (reads : disk.moduleOf home = .ok x) :
    ∃ file ∈ sourcesIn (overlay.inFrontOf disk.fileSystem) home, file.same f = true := by
  obtain ⟨cs, inner, rfl⟩ := query_directory asks absolute source.above
  have components : home.components = .root :: cs :=
    (same_iff.mp place).trans (components_ofComponents inner)
  obtain ⟨listed, inside, alike⟩ := source.listed
  rw [← components] at inside
  obtain ⟨file, member, spelled⟩ :=
    source_respelled named (isAbsolute_of_components components) reads inside
  exact ⟨file, member, same_iff.mpr (spelled.trans (same_iff.mp alike))⟩

/-- A query for a file that is among the sources of its directory finds the file. If the path of its
module is not taken by anything but a module of the same directory, then the module stands in the
response and answers the query, and the file is listed either by the module or by the external tests
behind it, which answer the query as well. It is never listed by both. -/
theorem load_finds_file {before after : List String} {m : Descriptor} {r : Response}
    (named : Named (.directory disk.root))
    (ran : load disk settings overlay (before ++ raw :: after) = .ok r)
    (asks : Pattern.read raw settings.workingDir = .file f) (absolute : f.isAbsolute = true)
    (source : SourceOf disk overlay f d m)
    (first : ∀ g, discover disk { settings with withExamples := false } overlay before = .ok g →
      ∀ p ∈ g.packages, p.isExternalTest = false → p.path = m.module → IsModuleIn d p) :
    ∃ g j b, discover disk settings overlay (before ++ raw :: after) = .ok g ∧
      r.roots = g.roots.filterMap (fun i => (r.packages[i]?).map (·.id)) ∧
      r.packages[j]? = some b ∧ j ∈ g.roots ∧ b.path = m.module ∧ IsModuleIn d b ∧
      (Lists b f ∧ (∀ x ∈ r.packages, TestsOf b x → ¬ Lists x f) ∨
        ¬ Lists b f ∧ ∃ x, r.packages[j + 1]? = some x ∧ j + 1 ∈ g.roots ∧ TestsOf b x ∧
          Lists x f) := by
  obtain ⟨g, discovered, packages, roots⟩ := load_eq_discover ran
  obtain ⟨c, kept, asked, path, workspace, declared⟩ :=
    query_winner asks source (load_eq_ok_iff.mp ran).1 first
  obtain ⟨j, at_j, marked⟩ := response_of_kept discovered kept
  have root : j ∈ g.roots := marked.mpr (by simp [Candidate.answers, asked])
  obtain ⟨home, own, place⟩ : ∃ home, c.package.module? = some home ∧ home.dir.same d = true := by
    simpa [Option.any_eq_true] using declared
  obtain ⟨x, reads⟩ := moduleOf_of_candidate (mem_of_mem_firsts kept) workspace own
  obtain ⟨file, member, same⟩ := source_in_home named asks absolute source place reads
  have once := lists_once named ran discovered at_j (by rwa [link_origin]) (by rwa [link_module?])
    member same
  rw [packages]
  refine ⟨g, j, _, discovered, roots.trans (parts_linked g), at_j, root, ?_, ?_, ?_⟩
  · rw [link_path]
    exact path
  · rw [IsModuleIn, link_origin, link_module?]
    exact ⟨workspace, declared⟩
  · rcases once with lists | ⟨other, x, next, marks, tests, lists⟩
    · exact Or.inl lists
    · exact Or.inr ⟨other, x, next, marks.mpr root, tests, lists⟩

end Responses

/-- A test that is not on disk yet. -/
def queriedOverlay : Overlay :=
  .ofList [(⟨"/c_test.gno"⟩, Text.utf8Bytes "package a_test\n")]

theorem queriedOverlay_source : ∃ m, m.module = "a" ∧
    SourceOf sampleDisk queriedOverlay ⟨"/c_test.gno"⟩ ⟨"/"⟩ m := by
  obtain ⟨x, reads, module⟩ : ∃ x, sampleDisk.moduleOf ⟨"/"⟩ = .ok x ∧ x.2.module = "a" :=
    exists_ok_of_any (by decide +kernel)
  exact ⟨x.2, module, by decide +kernel, ⟨_, rfl⟩, ⟨x.1, reads⟩, by decide +kernel⟩

/-- The test is found although a walk came through its directory before. -/
theorem queriedOverlay_finds_file : ∃ r m g j b,
    load sampleDisk sampleSettings queriedOverlay (["/"] ++ "file=/c_test.gno" :: []) = .ok r ∧
      SourceOf sampleDisk queriedOverlay ⟨"/c_test.gno"⟩ ⟨"/"⟩ m ∧
      discover sampleDisk sampleSettings queriedOverlay (["/"] ++ "file=/c_test.gno" :: []) = .ok g ∧
      r.packages[j]? = some b ∧ j ∈ g.roots ∧ b.path = m.module ∧
      (Lists b ⟨"/c_test.gno"⟩ ∨ ∃ x, r.packages[j + 1]? = some x ∧ j + 1 ∈ g.roots ∧
        TestsOf b x ∧ Lists x ⟨"/c_test.gno"⟩) := by
  obtain ⟨m, module, source⟩ := queriedOverlay_source
  obtain ⟨r, ran, -⟩ : ∃ r, load sampleDisk sampleSettings queriedOverlay
      (["/"] ++ "file=/c_test.gno" :: []) = .ok r ∧ r.roots = ["a", "a_test"] :=
    exists_ok_of_any (by decide +kernel)
  obtain ⟨g₀, found, own⟩ : ∃ g, discover sampleDisk { sampleSettings with withExamples := false }
      queriedOverlay ["/"] = .ok g ∧
        ∀ p ∈ g.packages, p.isExternalTest = false → p.path = "a" → IsModuleIn ⟨"/"⟩ p :=
    exists_ok_of_any (by decide +kernel)
  have named : Named (.directory sampleDisk.root) := by decide +kernel
  have asks : Pattern.read "file=/c_test.gno" sampleSettings.workingDir = .file ⟨"/c_test.gno"⟩ := by
    decide +kernel
  obtain ⟨g, j, b, discovered, -, at_j, root, path, -, lists⟩ :=
    load_finds_file named ran asks (by decide) source fun g discovered p member plain path => by
      cases found.symm.trans discovered
      exact own p member plain (path.trans module)
  exact ⟨r, m, g, j, b, ran, source, discovered, at_j, root, path,
    lists.imp And.left fun lists => lists.2⟩

end PackageLoader.FileQueries
