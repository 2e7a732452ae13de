import PackageLoader.Proofs.DirectoryWalk
import PackageLoader.Proofs.GraphRuns
import PackageLoader.Proofs.Offers
import PackageLoader.Proofs.PathSpellings

/-! Adding the library. The walk of the library goes no further below a directory that cannot be listed.
Every directory that it comes through has a path of its own, so packages of the library are only turned
away for packages that were there before, and a library that was added once has nothing left to add. -/
namespace PackageLoader.LibraryInjection
open Disk DirectoryWalk GraphRuns LinkFreeDisk Offers PathNormalForm PathSpellings Subdirectories
open TableLaws

/-! ## Adding packages -/

section Packages

variable {g : PackageGraph} {ps : List Package}

/-- The packages whose paths are free in a graph. -/
def newcomers (g : PackageGraph) (ps : List Package) : List Package :=
  ps.filter fun p => !g.containsPath p.path

/-- The packages with free paths were added, and they were counted. -/
structure Added (g : PackageGraph) (ps : List Package) (result : PackageGraph × Nat) : Prop where
  packages : result.1.packages = g.packages ++ newcomers g ps
  count : result.2 = (newcomers g ps).length
  roots : result.1.roots = g.roots
  indexed : Indexed result.1

/-- Paths that were taken stay taken, and so do those of the packages that were added. -/
theorem Added.containsPath {result : PackageGraph × Nat} (added : Added g ps result)
    (indexed : Indexed g) (plain : ∀ p ∈ ps, p.isExternalTest = false) (path : String) :
    result.1.containsPath path = true ↔ g.containsPath path = true ∨ ∃ p ∈ ps, p.path = path := by
  rw [containsPath_iff_mem added.indexed, containsPath_iff_mem indexed, added.packages]
  constructor
  · rintro ⟨p, member, other, same⟩
    rcases List.mem_append.mp member with old | new
    · exact Or.inl ⟨p, old, other, same⟩
    · exact Or.inr ⟨p, (List.mem_filter.mp new).1, same⟩
  · rintro (⟨p, old, other, same⟩ | ⟨p, offered, same⟩)
    · exact ⟨p, List.mem_append_left _ old, other, same⟩
    · by_cases taken : g.containsPath p.path = true
      · obtain ⟨q, old, other, same'⟩ := (containsPath_iff_mem indexed p.path).mp taken
        exact ⟨q, List.mem_append_left _ old, other, same'.trans same⟩
      · exact ⟨p, List.mem_append_right _ (List.mem_filter.mpr ⟨offered, by simpa using taken⟩),
          plain p offered, same⟩

/-- Of packages that do not share paths, those with free paths are added. -/
theorem insertAll_added (indexed : Indexed g) (plain : ∀ p ∈ ps, p.isExternalTest = false)
    (apart : (ps.map (·.path)).Nodup) : Added g ps (g.insertAll ps) := by
  induction ps using List.reverseRecOn with
  | nil => exact ⟨by simp [newcomers, PackageGraph.insertAll], rfl, rfl, indexed⟩
  | append_singleton ps p ih =>
    rw [List.map_append, List.nodup_append] at apart
    obtain ⟨before, -, other⟩ := apart
    have plainBefore : ∀ q ∈ ps, q.isExternalTest = false :=
      fun q member => plain q (List.mem_append_left _ member)
    have own : p.isExternalTest = false := plain p (by simp)
    have added := ih plainBefore before
    have unheld : ¬ ∃ q ∈ ps, q.path = p.path := by
      rintro ⟨q, member, same⟩
      exact other q.path (List.mem_map_of_mem member) p.path (by simp) same
    have taken : (g.insertAll ps).1.containsPath p.path = g.containsPath p.path :=
      Bool.eq_iff_iff.mpr ((added.containsPath indexed plainBefore p.path).trans (or_iff_left unheld))
    rw [insertAll_last]
    rcases insert_cases (g.insertAll ps).1 p with ⟨-, held, refused⟩ | ⟨free, accepted⟩
    · have none : newcomers g (ps ++ [p]) = newcomers g ps := by
        simp [newcomers, ← taken, held]
      rw [refused]
      exact ⟨none ▸ added.packages, none ▸ added.count, added.roots, added.indexed⟩
    · have one : newcomers g (ps ++ [p]) = newcomers g ps ++ [p] := by
        simp [newcomers, ← taken, free.resolve_left (by simp [own])]
      rw [accepted]
      refine ⟨?_, ?_, added.roots, indexed_append added.indexed free⟩
      · rw [one, ← List.append_assoc, ← added.packages]
        rfl
      · rw [one, List.length_append, ← added.count]
        rfl

/-- Where all paths are taken, nothing is added. -/
theorem insertAll_taken (plain : ∀ p ∈ ps, p.isExternalTest = false)
    (taken : ∀ p ∈ ps, g.containsPath p.path = true) : g.insertAll ps = (g, 0) := by
  induction ps using List.reverseRecOn with
  | nil => rfl
  | append_singleton ps p ih =>
    rw [insertAll_last, ih (fun q member => plain q (List.mem_append_left _ member))
      fun q member => taken q (List.mem_append_left _ member)]
    have refused : g.insert p = (g, none) := by
      rw [PackageGraph.insert, plain p (by simp), taken p (by simp)]
      rfl
    rw [refused]
    rfl

/-- What was added once is not added again. -/
theorem insertAll_again (indexed : Indexed g) (plain : ∀ p ∈ ps, p.isExternalTest = false)
    (apart : (ps.map (·.path)).Nodup) :
    (g.insertAll ps).1.insertAll ps = ((g.insertAll ps).1, 0) :=
  insertAll_taken plain fun p offered =>
    ((insertAll_added indexed plain apart).containsPath indexed plain p.path).mpr
      (Or.inr ⟨p, offered, rfl⟩)

end Packages

/-! ## Library directories -/

section Paths

variable {as bs : List String}

/-- Names joined by separators can be told apart again. -/
theorem intercalate_inj (filledA : as ≠ []) (filledB : bs ≠ []) (validA : ∀ name ∈ as, IsName name)
    (validB : ∀ name ∈ bs, IsName name) :
    "/".intercalate as = "/".intercalate bs ↔ as = bs := by
  have segments {names : List String} (valid : ∀ name ∈ names, IsName name) :
      ∀ name ∈ names, IsSegment name := fun name member => (valid name member).toIsSegment
  refine ⟨fun same => ?_, fun same => same ▸ rfl⟩
  rw [← pieces_intercalate filledA (segments validA), same,
    pieces_intercalate filledB (segments validB)]

/-- A directory below the library root has its names, joined, as its path. -/
theorem libraryPath?_descend (root : Path) (valid : ∀ name ∈ as, IsName name) :
    libraryPath? root (descend root as) = some ("/".intercalate as) := by
  rw [libraryPath?, descend_below? root valid, Option.map_some, List.map_map]
  exact congrArg (some <| "/".intercalate ·) (List.map_id as)

end Paths

section Library

variable {disk : Disk} {fs : FileSystem} {roots : LibraryRoots} {names : List String}

/-- The names that lead from the library root to the directories that are walked below it, in the order
of the walk. -/
def libraryNames (disk : Disk) (roots : LibraryRoots) : List (List String) :=
  match disk.opened roots.packages with
  | .ok (location, entries) => namesIn disk.refuses location entries
  | .error _ => []

theorem directoriesBelow_library (disk : Disk) (roots : LibraryRoots) :
    disk.directoriesBelow roots.packages = (libraryNames disk roots).map (descend roots.packages) := by
  unfold directoriesBelow libraryNames
  cases disk.opened roots.packages with
  | error cause => rfl
  | ok found => exact directoriesIn_eq found.1 _ found.2

theorem mem_libraryNames : names ∈ libraryNames disk roots ↔ names ≠ [] ∧ ∃ location entries inner,
    disk.opened roots.packages = .ok (location, entries) ∧
      (Node.directory entries).at? names = some (.directory inner) ∧
        Passed disk.refuses location names := by
  unfold libraryNames
  cases opens : disk.opened roots.packages with
  | error cause => simp
  | ok found =>
    obtain ⟨location, entries⟩ := found
    obtain ⟨-, stands, open'⟩ := opened_eq_ok_iff.mp opens
    simp [mem_namesIn_iff (ordered_at disk.ordered stands) open']

theorem libraryNames_ascending (disk : Disk) (roots : LibraryRoots) :
    (libraryNames disk roots).Pairwise Before := by
  unfold libraryNames
  split
  · rename_i location entries opens
    obtain ⟨-, stands, -⟩ := opened_eq_ok_iff.mp opens
    cases ordered_at disk.ordered stands with
    | directory ascending inner => exact namesIn_ascending location entries ascending inner
  · exact .nil

theorem libraryNames_valid (named : Named (.directory disk.root)) (roots : LibraryRoots) :
    ∀ ns ∈ libraryNames disk roots, ∀ name ∈ ns, IsName name := by
  intro ns member
  obtain ⟨-, location, entries, inner, opens, real, -⟩ := mem_libraryNames.mp member
  exact (found_proper named (stat_of_opened opens)).2 ns (by rw [real]; rfl)

/-- Different directories of the library have different paths. -/
theorem libraryPath?_inj (named : Named (.directory disk.root)) :
    ∀ d ∈ disk.directoriesBelow roots.packages, ∀ d' ∈ disk.directoriesBelow roots.packages,
      libraryPath? roots.packages d = libraryPath? roots.packages d' → d = d' := by
  rw [directoriesBelow_library]
  intro d first d' second same
  obtain ⟨as, memberA, rfl⟩ := List.mem_map.mp first
  obtain ⟨bs, memberB, rfl⟩ := List.mem_map.mp second
  have validA := libraryNames_valid named roots as memberA
  have validB := libraryNames_valid named roots bs memberB
  rw [libraryPath?_descend _ validA, libraryPath?_descend _ validB, Option.some.injEq] at same
  rw [(intercalate_inj (mem_libraryNames.mp memberA).1 (mem_libraryNames.mp memberB).1 validA validB).mp
    same]

theorem libraryPackages_names (disk : Disk) (fs : FileSystem) (roots : LibraryRoots) :
    libraryPackages disk fs roots = (libraryNames disk roots).filterMap fun ns =>
      fs.libraryPackage? roots (descend roots.packages ns) := by
  rw [libraryPackages, directoriesBelow_library, List.filterMap_map]
  rfl

/-- The package in a directory below the library root goes by the names of the directory. -/
theorem library_package_names (valid : ∀ name ∈ names, IsName name) {p : Package}
    (found : fs.libraryPackage? roots (descend roots.packages names) = some p) :
    p.path = "/".intercalate names := by
  have placed := library_package_path found
  rw [libraryPath?_descend _ valid] at placed
  exact (Option.some.inj placed).symm

/-- A directory below the library root is a package if source files are listed in it. -/
theorem libraryPackage?_isSome (valid : ∀ name ∈ names, IsName name) :
    (fs.libraryPackage? roots (descend roots.packages names)).isSome ↔
      ∃ file files, fs.packageFiles (descend roots.packages names) = .ok (file :: files) := by
  rw [FileSystem.libraryPackage?, libraryPath?_descend _ valid]
  split
  · rename_i file files _ listed
    simp [listed]
  · rename_i other
    simpa using fun file files => other _ file files rfl

/-- No two packages of the library share a path. -/
theorem library_paths_nodup (named : Named (.directory disk.root)) (fs : FileSystem)
    (roots : LibraryRoots) :
    ((libraryPackages disk fs roots).map (·.path)).Nodup := by
  rw [libraryPackages_names, List.Nodup, List.pairwise_map, List.pairwise_filterMap]
  refine (libraryNames_ascending disk roots).imp_of_mem fun {as bs} memberA memberB before p first q
    second same => ?_
  have validA := libraryNames_valid named roots as memberA
  have validB := libraryNames_valid named roots bs memberB
  rw [library_package_names validA first, library_package_names validB second,
    intercalate_inj (mem_libraryNames.mp memberA).1 (mem_libraryNames.mp memberB).1 validA validB] at same
  rw [same, Before, Std.ReflOrd.compare_self] at before
  cases before

end Library

/-! ## Adding the library -/

/-- The names lead to a real directory below the library root, and source files are listed in it. -/
structure HoldsSources (disk : Disk) (fs : FileSystem) (roots : LibraryRoots) (names : List String) :
    Prop where
  below : names ≠ []
  real : ∃ entries inner, disk.stat {} roots.packages = .ok (.directory entries) ∧
    (Node.directory entries).at? names = some (.directory inner)
  listed : ∃ file files, fs.packageFiles (descend roots.packages names) = .ok (file :: files)

section Overlaid

variable {disk : Disk} {overlay : Overlay} {roots : LibraryRoots} {names : List String}

/-- An overlay lists a real directory only if the disk finds it. -/
theorem stat_of_overlaid {p : Path} {location : List String} {entries inner : Entries}
    (leads : disk.resolve {} p = .ok location)
    (stands : disk.node? location = some (.directory entries)) (valid : ∀ name ∈ names, IsName name)
    (real : (Node.directory entries).at? names = some (.directory inner)) {files : List Path}
    (listed : (overlay.inFrontOf disk.fileSystem).packageFiles (descend p names) = .ok files) :
    ∃ node, disk.stat {} (descend p names) = .ok node := by
  rcases resolve_real leads stands valid real with arrives | ⟨cause, refused, other⟩
  · exact ⟨_, stat_eq_ok_iff.mpr ⟨_, arrives, node?_append stands real⟩⟩
  · have unlisted : disk.listing (descend p names) = .error cause := by
      rw [Disk.listing, Disk.opened, refused]
      rfl
    have overlaid : (overlay.inFrontOf disk.fileSystem).listing (descend p names) = .error cause := by
      cases cause <;> first | exact absurd rfl other | simp [Overlay.inFrontOf, fileSystem, unlisted]
    rw [FileSystem.packageFiles, overlaid] at listed
    cases listed

/-- Where sources are listed, the walk gets to the real directories that lie below directories which can
be listed. -/
theorem mem_libraryNames_overlaid (named : Named (.directory disk.root))
    (holds : HoldsSources disk (overlay.inFrontOf disk.fileSystem) roots names) :
    names ∈ libraryNames disk roots ↔ Passable disk roots.packages names := by
  obtain ⟨below, ⟨entries, inner, whole, real⟩, file, files, listed⟩ := holds
  have valid : ∀ name ∈ names, IsName name :=
    (found_proper named whole).2 names (by rw [real]; rfl)
  obtain ⟨location, leads, stands⟩ := stat_eq_ok_iff.mp whole
  obtain ⟨node, found⟩ := stat_of_overlaid leads stands valid real listed
  rw [← passed_iff_passable leads stands valid real found, mem_libraryNames]
  constructor
  · rintro ⟨-, location', entries', inner', opens, -, passed⟩
    obtain ⟨leads', -, -⟩ := opened_eq_ok_iff.mp opens
    cases leads.symm.trans leads'
    exact passed
  · intro passed
    have open' := passed_iff.mp passed [] List.nil_prefix below.symm
    rw [List.append_nil] at open'
    exact ⟨below, location, entries, inner, opened_eq_ok_iff.mpr ⟨leads, stands, open'⟩, real, passed⟩

end Overlaid

/-- The package in a directory below the library root, if its path is free. -/
def newcomer? (fs : FileSystem) (roots : LibraryRoots) (g : PackageGraph) (names : List String) :
    Option Package :=
  (fs.libraryPackage? roots (descend roots.packages names)).filter fun p => !g.containsPath p.path

section Newcomers

variable {disk : Disk} {fs : FileSystem} {roots : LibraryRoots} {g : PackageGraph}
  {names : List String}

theorem newcomers_library (disk : Disk) (fs : FileSystem) (roots : LibraryRoots) (g : PackageGraph) :
    newcomers g (libraryPackages disk fs roots) =
      (libraryNames disk roots).filterMap (newcomer? fs roots g) := by
  rw [newcomers, libraryPackages_names, List.filter_filterMap]
  rfl

theorem newcomer?_eq_some {p : Package} : newcomer? fs roots g names = some p ↔
    fs.libraryPackage? roots (descend roots.packages names) = some p ∧
      g.containsPath p.path = false := by
  rw [newcomer?, Option.filter_eq_some_iff, Bool.not_eq_true']

/-- The directories that packages are added for. -/
theorem newcomer?_isSome (indexed : Indexed g) (valid : ∀ name ∈ names, IsName name) :
    (newcomer? fs roots g names).isSome ↔
      (∃ file files, fs.packageFiles (descend roots.packages names) = .ok (file :: files)) ∧
      ∀ p ∈ g.packages, p.isExternalTest = false → p.path ≠ "/".intercalate names := by
  have free : (∀ p ∈ g.packages, p.isExternalTest = false → p.path ≠ "/".intercalate names) ↔
      g.containsPath ("/".intercalate names) = false := by
    rw [← Bool.not_eq_true, containsPath_iff_mem indexed]
    push Not
    rfl
  rw [← libraryPackage?_isSome valid, free, Option.isSome_iff_exists, Option.isSome_iff_exists]
  simp only [newcomer?_eq_some]
  constructor
  · rintro ⟨p, found, unheld⟩
    exact ⟨⟨p, found⟩, library_package_names valid found ▸ unheld⟩
  · rintro ⟨⟨p, found⟩, unheld⟩
    exact ⟨p, found, (library_package_names valid found).symm ▸ unheld⟩

end Newcomers

/-- What is kept is read off the items that it is kept for. -/
theorem map_filterMap_eq {f : α → Option β} {k : β → γ} {j : α → γ} {items : List α}
    (reads : ∀ a ∈ items, ∀ b, f a = some b → k b = j a) :
    (items.filterMap f).map k = (items.filter fun a => (f a).isSome).map j := by
  induction items with
  | nil => rfl
  | cons a rest ih =>
    have later := ih fun c member => reads c (List.mem_cons_of_mem _ member)
    cases held : f a with
    | none => simpa [held] using later
    | some b => simpa [held, reads a (List.mem_cons_self ..) b held] using later

/-- To a graph that finds its packages by their paths, as all calls leave it, a library adds one package
for each real directory below its root that holds sources, that lies below directories which can be
listed and whose path was free, in the order of the walk. No directory stands in the way of another one,
the roots stay, and adding the library once more changes nothing at all. -/
theorem addLibrary_adds_directories {disk : Disk} (named : Named (.directory disk.root))
    {g : PackageGraph} (indexed : Indexed g) (overlay : Overlay) (roots : LibraryRoots)
    {fs : FileSystem} (overlaid : fs = overlay.inFrontOf disk.fileSystem) :
    ∃ (places : List (List String)) (added : List Package),
      (∀ names, names ∈ places ↔ HoldsSources disk fs roots names ∧
        Passable disk roots.packages names ∧
        ∀ p ∈ g.packages, p.isExternalTest = false → p.path ≠ "/".intercalate names) ∧
      (places.map (descend roots.packages)).Pairwise (fun a b => compare a b = .lt) ∧
      added.map some =
        places.map (fun names => fs.libraryPackage? roots (descend roots.packages names)) ∧
      added.map (·.path) = places.map ("/".intercalate ·) ∧
      (∀ p ∈ added, p.origin = .library ∧ p.isExternalTest = false) ∧
      (g.addLibrary disk fs roots).1.packages = g.packages ++ added ∧
      (g.addLibrary disk fs roots).2 = added.length ∧
      (g.addLibrary disk fs roots).1.roots = g.roots ∧
      (∀ d ∈ disk.directoriesBelow roots.packages, ∀ d' ∈ disk.directoriesBelow roots.packages,
        libraryPath? roots.packages d = libraryPath? roots.packages d' → d = d') ∧
      (g.addLibrary disk fs roots).1.addLibrary disk fs roots = ((g.addLibrary disk fs roots).1, 0) := by
  subst overlaid
  generalize layered : overlay.inFrontOf disk.fileSystem = fs
  have plain := library_packages_plain disk fs roots
  have once := library_paths_nodup named fs roots
  have result := insertAll_added indexed plain once
  have valid := libraryNames_valid named roots
  refine ⟨(libraryNames disk roots).filter fun ns => (newcomer? fs roots g ns).isSome,
    newcomers g (libraryPackages disk fs roots), fun names => ?_, ?_, ?_, ?_, fun p member => ?_,
    result.packages, result.count, result.roots, libraryPath?_inj named,
    insertAll_again indexed plain once⟩
  · rw [List.mem_filter]
    constructor
    · rintro ⟨member, new⟩
      obtain ⟨below, location, entries, inner, opens, real, -⟩ := mem_libraryNames.mp member
      obtain ⟨listed, free⟩ := (newcomer?_isSome indexed (valid names member)).mp new
      have holds : HoldsSources disk fs roots names :=
        ⟨below, ⟨entries, inner, stat_of_opened opens, real⟩, listed⟩
      exact ⟨holds, (mem_libraryNames_overlaid named (layered ▸ holds)).mp member, free⟩
    · rintro ⟨holds, passable, free⟩
      have member := (mem_libraryNames_overlaid named (layered ▸ holds)).mpr passable
      exact ⟨member, (newcomer?_isSome indexed (valid names member)).mpr ⟨holds.listed, free⟩⟩
  · exact descend_ascending (fun ns kept => valid ns (List.mem_filter.mp kept).1)
      ((libraryNames_ascending disk roots).filter _)
  · rw [newcomers_library]
    exact map_filterMap_eq fun ns _ p new => (newcomer?_eq_some.mp new).1.symm
  · rw [newcomers_library]
    exact map_filterMap_eq fun ns member p new =>
      library_package_names (valid ns member) (newcomer?_eq_some.mp new).1
  · have offered := (List.mem_filter.mp member).1
    obtain ⟨dir, -, found⟩ := List.mem_filterMap.mp offered
    exact ⟨(library_package_fields found).1, plain p offered⟩

/-- A library with a package in a package, a link to one, a directory without files, one without sources
and one that cannot be listed but holds a package in a directory below. -/
def libraryDisk : Disk where
  root := [("l", .directory [
    ("a", .directory [("a.gno", .file []), ("x", .directory [("x.gno", .file [])])]),
    ("b", .link "a"),
    ("c", .directory []),
    ("d", .directory [("README", .file [])]),
    ("e", .directory [("y", .directory [("y.gno", .file [])])])])]
  ordered := by decide
  workingDir := []
  refuses := fun location => location == ["l", "e"]

/-- An unsaved file in the directory without files. -/
def libraryFiles : FileSystem :=
  Overlay.inFrontOf (Table.empty.insert ⟨"/l/c/c.gno"⟩ []) libraryDisk.fileSystem

/-- A module with the path of a library package, and external tests with the path of another one. -/
def modulesBefore : PackageGraph :=
  ((({} : PackageGraph).insert (.new "a" .workspace)).1.insert (.new "c" .externalTest)).1

/-- The module is kept, the external tests are not in the way, and the link and what lies below the
directory that cannot be listed are passed over. -/
theorem addLibrary_adds_libraryDisk : ∃ added, Named (.directory libraryDisk.root) ∧
    Indexed modulesBefore ∧ added.map (·.path) = ["a/x", "c"] ∧ (∀ p ∈ added, p.origin = .library) ∧
    (modulesBefore.addLibrary libraryDisk libraryFiles ⟨⟨"/l"⟩, ⟨"/t"⟩⟩).1.packages =
      modulesBefore.packages ++ added ∧
    (modulesBefore.addLibrary libraryDisk libraryFiles ⟨⟨"/l"⟩, ⟨"/t"⟩⟩).2 = 2 := by
  have named : Named (.directory libraryDisk.root) := by decide +kernel
  have indexed : Indexed modulesBefore := indexed_insert (indexed_insert indexed_empty _) _
  obtain ⟨-, added, -, -, -, -, library, packages, count, -⟩ :=
    addLibrary_adds_directories named indexed _ ⟨⟨"/l"⟩, ⟨"/t"⟩⟩ (show libraryFiles = _ from rfl)
  have all : (modulesBefore.addLibrary libraryDisk libraryFiles ⟨⟨"/l"⟩, ⟨"/t"⟩⟩).1.packages.map
      (·.path) = ["a", "c"] ++ ["a/x", "c"] := by decide +kernel
  have before : modulesBefore.packages.map (·.path) = ["a", "c"] := by decide +kernel
  rw [packages, List.map_append, before] at all
  have paths := List.append_cancel_left all
  have two : added.length = 2 := by rw [← List.length_map (·.path), paths]; rfl
  exact ⟨added, named, indexed, paths, fun p member => (library p member).1, packages, count.trans two⟩

/-- Not every real directory with sources is added: the walk never gets to one that lies below a
directory which cannot be listed, although its sources can be listed and read. -/
theorem addLibrary_misses_directory : ¬ ∀ (disk : Disk) (g : PackageGraph) (overlay : Overlay)
    (roots : LibraryRoots), Named (.directory disk.root) → Indexed g →
      ∃ (places : List (List String)) (added : List Package),
        (∀ names, names ∈ places ↔
          HoldsSources disk (overlay.inFrontOf disk.fileSystem) roots names ∧
          ∀ p ∈ g.packages, p.isExternalTest = false → p.path ≠ "/".intercalate names) ∧
        added.map (·.path) = places.map ("/".intercalate ·) ∧
        (g.addLibrary disk (overlay.inFrontOf disk.fileSystem) roots).1.packages =
          g.packages ++ added := by
  intro complete
  obtain ⟨places, added, exactly, paths, packages⟩ :=
    complete libraryDisk {} Table.empty ⟨⟨"/l"⟩, ⟨"/t"⟩⟩ (by decide +kernel) indexed_empty
  have holds : HoldsSources libraryDisk (Overlay.inFrontOf Table.empty libraryDisk.fileSystem)
      ⟨⟨"/l"⟩, ⟨"/t"⟩⟩ ["e", "y"] := ⟨by decide, ⟨_, _, rfl, rfl⟩, ⟨"/l/e/y/y.gno"⟩, [], rfl⟩
  have missed : "e/y" ∈ added.map (·.path) := by
    rw [paths]
    exact List.mem_map.mpr ⟨["e", "y"], (exactly _).mpr ⟨holds, by simp⟩, rfl⟩
  have all : (({} : PackageGraph).addLibrary libraryDisk
      (Overlay.inFrontOf Table.empty libraryDisk.fileSystem) ⟨⟨"/l"⟩, ⟨"/t"⟩⟩).1.packages.map (·.path) =
        ["a", "a/x"] := by decide +kernel
  rw [packages] at all
  have given : added.map (·.path) = ["a", "a/x"] := all
  rw [given] at missed
  exact absurd missed (by decide)

end PackageLoader.LibraryInjection
