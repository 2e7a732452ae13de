import Mathlib.Data.List.Induction
import PackageLoader.Query.Load

/-! What is on offer for a query, decided before any of it is taken: the library, what each pattern
offers, and the examples. Each candidate is a package with its external tests, and lays claim to one
path; the first candidate of each path is the one that counts. -/
namespace PackageLoader.Offers

/-! ## Candidates -/

/-- A package on offer with its external tests, if there are any files of those, and whether an
explicit pattern offers it. -/
structure Candidate where
  package : Package
  tests? : Option Package := none
  asked : Bool
  plain : package.isExternalTest = false
  separate : ∀ tests ∈ tests?, tests.isExternalTest = true ∧ tests.hasFiles = true

namespace Candidate

/-- The path that the candidate lays claim to. -/
def path (c : Candidate) : String :=
  c.package.path

/-- The package and its external tests right behind it. -/
def packages (c : Candidate) : List Package :=
  c.package :: c.tests?.toList

/-- Whether the packages of the candidate answer the query once they are found. A `builtin` pattern
asks for whatever holds the builtin path. -/
def answers (builtinAsked : Bool) (c : Candidate) : Bool :=
  c.asked || (builtinAsked && c.path = builtinPath)

end Candidate

theorem plain_of_mem_packages {c : Candidate} {p : Package} (member : p ∈ c.packages)
    (plain : p.isExternalTest = false) : p = c.package := by
  rcases List.mem_cons.mp member with same | tests
  · exact same
  · rw [(c.separate p (Option.mem_toList.mp tests)).1] at plain
    cases plain

/-- The first candidate of each path, in order. -/
def firsts (cs : List Candidate) : List Candidate :=
  cs.eraseDupsBy fun later earlier => later.path == earlier.path

/-- The packages of the candidates in order, each with the candidate that it belongs to. -/
def owned (cs : List Candidate) : List (Candidate × Package) :=
  cs.flatMap fun c => c.packages.map (c, ·)

theorem owned_packages (cs : List Candidate) : (owned cs).map (·.2) = cs.flatMap (·.packages) := by
  simp [owned, List.map_flatMap, Function.comp_def]

theorem mem_owned {cs : List Candidate} {e : Candidate × Package} (member : e ∈ owned cs) :
    e.1 ∈ cs ∧ e.2 ∈ e.1.packages := by
  obtain ⟨c, kept, own⟩ := List.mem_flatMap.mp member
  obtain ⟨p, inside, rfl⟩ := List.mem_map.mp own
  exact ⟨kept, inside⟩

/-- Both come from the same place and go by the same path and identifier. -/
structure SameIdentity (p q : Package) : Prop where
  origin : p.origin = q.origin
  path : p.path = q.path
  id : p.id = q.id

theorem SameIdentity.trans {p q r : Package} (first : SameIdentity p q) (second : SameIdentity q r) :
    SameIdentity p r :=
  ⟨first.origin.trans second.origin, first.path.trans second.path, first.id.trans second.id⟩

/-- Adding files one by one keeps what a package goes by if adding one does. -/
theorem foldl_keeps {add : Package → Path → Package}
    (keeps : ∀ p file, SameIdentity (add p file) p) (files : List Path) (p : Package) :
    SameIdentity (files.foldl add p) p := by
  induction files generalizing p with
  | nil => exact ⟨rfl, rfl, rfl⟩
  | cons file rest ih => exact (ih (add p file)).trans (keeps p file)

theorem pushFiles_keeps (p : Package) (files : List Path) : SameIdentity (p.pushFiles files) p := by
  have one (p : Package) (file : Path) : SameIdentity (p.pushFile file) p := ⟨rfl, rfl, rfl⟩
  exact foldl_keeps one files p

theorem addTestFiles_keeps (p : Package) (fs : FileSystem) (dir : Path) :
    SameIdentity (p.addTestFiles fs dir) p := by
  have one (p : Package) (file : Path) : SameIdentity (p.addTestFile file) p := by
    unfold Package.addTestFile
    split <;> exact ⟨rfl, rfl, rfl⟩
  unfold Package.addTestFiles
  split
  · split
    · exact foldl_keeps one _ p
    · exact ⟨rfl, rfl, rfl⟩
  · exact ⟨rfl, rfl, rfl⟩

/-- A library package goes by its path. -/
theorem library_package_fields {fs : FileSystem} {roots : LibraryRoots} {dir : Path}
    {p : Package} (found : fs.libraryPackage? roots dir = some p) :
    p.origin = .library ∧ p.id = p.path := by
  unfold FileSystem.libraryPackage? at found
  split at found
  · rename_i path file files _ _
    have listed := pushFiles_keeps (.new path .library) (file :: files)
    have all := (addTestFiles_keeps _ fs (roots.tests.child path)).trans listed
    cases found
    exact ⟨all.origin, all.id.trans all.path.symm⟩
  · cases found

theorem library_packages_plain (disk : Disk) (fs : FileSystem) (roots : LibraryRoots) :
    ∀ p ∈ libraryPackages disk fs roots, p.isExternalTest = false := by
  intro p member
  obtain ⟨dir, -, found⟩ := List.mem_filterMap.mp member
  simp [Package.isExternalTest, (library_package_fields found).1]

theorem library_package_path {fs : FileSystem} {roots : LibraryRoots} {dir : Path}
    {p : Package} (found : fs.libraryPackage? roots dir = some p) :
    libraryPath? roots.packages dir = some p.path := by
  unfold FileSystem.libraryPackage? at found
  split at found
  · rename_i path file files placed _
    have listed := pushFiles_keeps (.new path .library) (file :: files)
    have all := (addTestFiles_keeps _ fs (roots.tests.child path)).trans listed
    cases found
    rw [placed]
    exact congrArg some all.path.symm
  · cases found

/-- A package behind all others is added to the graph that the others leave. -/
theorem insertAll_last (g : PackageGraph) (ps : List Package) (p : Package) :
    g.insertAll (ps ++ [p]) = (((g.insertAll ps).1.insert p).1,
      if ((g.insertAll ps).1.insert p).2.isSome then (g.insertAll ps).2 + 1
      else (g.insertAll ps).2) := by
  simp only [PackageGraph.insertAll, List.foldl_append, List.foldl_cons, List.foldl_nil]
  split <;> rename_i inserted <;> simp [inserted]

/-- A listed module is a package of the workspace that claims the path in its descriptor. -/
theorem listed_package_fields {fs : FileSystem} {dir file : Path} {d : Descriptor} {p : Package}
    (found : fs.listedPackage? dir file d = some p) :
    p.origin = .workspace ∧ p.path = d.module ∧ p.id = d.module := by
  unfold FileSystem.listedPackage? at found
  split at found
  · cases found
  · cases found
    obtain ⟨origin, path, id⟩ := pushFiles_keeps _ _
    exact ⟨origin, path, id⟩
  · cases found
    exact ⟨rfl, rfl, rfl⟩

theorem listed_package_plain (fs : FileSystem) (dir file : Path) (d : Descriptor) :
    ∀ p ∈ fs.listedPackage? dir file d, p.isExternalTest = false := by
  intro p found
  simp [Package.isExternalTest, (listed_package_fields found).1]

theorem test_package_fields (p : Package) (fs : FileSystem) :
    (p.resolveWithTests fs).2.origin = .externalTest ∧
      (p.resolveWithTests fs).2.path = p.path ++ testSuffix ∧
      (p.resolveWithTests fs).2.id = p.path ++ testSuffix := by
  obtain ⟨origin, path, id⟩ := pushFiles_keeps p.externalTest
    (Package.splitFiles fs.isExternalTest p.files p.compiledFiles).moved
  exact ⟨origin, path, id⟩

/-- A library package on offer. Its external tests are not. -/
def libraryCandidate (p : Package) (plain : p.isExternalTest = false) : Candidate where
  package := p
  asked := false
  plain := plain
  separate := by simp

/-- What a `builtin` pattern offers. -/
def builtinCandidate (dir : Path) : Candidate where
  package := builtinPackage dir
  asked := true
  plain := rfl
  separate := by simp

/-- A listed module on offer, resolved, with its external tests if they have files. -/
def moduleCandidate (fs : FileSystem) (asked : Bool) (listed : Package)
    (plain : listed.isExternalTest = false) : Candidate where
  package := (listed.resolveWithTests fs).1
  tests? := some (listed.resolveWithTests fs).2 |>.filter (·.hasFiles)
  asked := asked
  plain := plain
  separate := by
    intro tests member
    obtain ⟨same, files⟩ := Option.filter_eq_some_iff.mp member
    cases same
    exact ⟨by simp [Package.isExternalTest, test_package_fields], files⟩

theorem mem_moduleCandidate_tests {fs : FileSystem} {asked : Bool} {listed tests : Package}
    {plain : listed.isExternalTest = false} :
    tests ∈ (moduleCandidate fs asked listed plain).tests? ↔
      tests = (listed.resolveWithTests fs).2 ∧ tests.hasFiles = true := by
  have offer : (moduleCandidate fs asked listed plain).tests? =
      (some (listed.resolveWithTests fs).2).filter (·.hasFiles) := rfl
  rw [Option.mem_def, offer, Option.filter_eq_some_iff, Option.some.injEq, eq_comm]

theorem mem_moduleCandidate_packages {fs : FileSystem} {asked : Bool} {listed p : Package}
    {plain : listed.isExternalTest = false}
    (own : p ∈ (moduleCandidate fs asked listed plain).packages) :
    p = (listed.resolveWithTests fs).1 ∨ p = (listed.resolveWithTests fs).2 ∧ p.hasFiles = true := by
  rcases List.mem_cons.mp own with same | tests
  · exact Or.inl same
  · exact Or.inr (mem_moduleCandidate_tests.mp (Option.mem_toList.mp tests))

/-- What a module directory offers: nothing if its preferred descriptor cannot be read or if it has
no source files. A directory that cannot be listed offers a package all the same. -/
def directoryCandidate? (disk : Disk) (fs : FileSystem) (asked : Bool) (dir : Path) :
    Option Candidate :=
  match disk.moduleOf dir with
  | .ok (file, d) => (fs.listedPackage? dir file d).pmap (moduleCandidate fs asked)
      (listed_package_plain fs dir file d)
  | .error _ => none

/-- What the modules at and below a directory offer, in the order of the walk. -/
def treeCandidates (disk : Disk) (fs : FileSystem) (asked : Bool) (dir : Path) : List Candidate :=
  match disk.moduleDirs dir with
  | .ok dirs => dirs.filterMap (directoryCandidate? disk fs asked)
  | .error _ => []

/-- What a pattern offers. -/
def patternCandidates (disk : Disk) (fs : FileSystem) (settings : Settings) (raw : String) :
    List Candidate :=
  match Pattern.read raw settings.workingDir with
  | .builtin => [builtinCandidate settings.builtinDir]
  | .dir dir => treeCandidates disk fs true dir
  | .file file => treeCandidates disk fs true (file.parent?.getD settings.workingDir)

/-- What the library of the installation offers. -/
def libraryCandidates (disk : Disk) (fs : FileSystem) (settings : Settings) : List Candidate :=
  match settings.root?.map LibraryRoots.within with
  | some roots =>
    if fs.isDir roots.packages then
      (libraryPackages disk fs roots).pmap libraryCandidate (library_packages_plain disk fs roots)
    else []
  | none => []

/-- What the examples of the installation offer, if they are wanted. -/
def exampleCandidates (disk : Disk) (fs : FileSystem) (settings : Settings) : List Candidate :=
  match settings.root?.map (·.child "examples") with
  | some dir =>
    if settings.withExamples && disk.isDir dir then treeCandidates disk fs false dir else []
  | none => []

/-- Everything on offer for a query: the library, then each pattern in turn, then the examples. -/
def candidates (disk : Disk) (settings : Settings) (overlay : Overlay) (patterns : List String) :
    List Candidate :=
  let fs := overlay.inFrontOf disk.fileSystem
  libraryCandidates disk fs settings ++ patterns.flatMap (patternCandidates disk fs settings) ++
    exampleCandidates disk fs settings

/-- Where a candidate comes from: a directory below the library root, a `builtin` pattern, or a
directory with a readable descriptor. -/
inductive Offered (disk : Disk) (fs : FileSystem) (settings : Settings) (patterns : List String) :
    Candidate → Prop where
  | library {roots : LibraryRoots} {dir : Path} {p : Package} (plain : p.isExternalTest = false)
      (home : settings.root?.map LibraryRoots.within = some roots)
      (below : dir ∈ disk.directoriesBelow roots.packages)
      (found : fs.libraryPackage? roots dir = some p) :
      Offered disk fs settings patterns (libraryCandidate p plain)
  | builtin (given : builtinPath ∈ patterns) :
      Offered disk fs settings patterns (builtinCandidate settings.builtinDir)
  | module {dir file : Path} {d : Descriptor} {listed : Package} (asked : Bool)
      (plain : listed.isExternalTest = false) (read : disk.moduleOf dir = .ok (file, d))
      (found : fs.listedPackage? dir file d = some listed) :
      Offered disk fs settings patterns (moduleCandidate fs asked listed plain)

theorem mem_treeCandidates {disk : Disk} {fs : FileSystem} {asked : Bool} {dir : Path}
    {c : Candidate} (member : c ∈ treeCandidates disk fs asked dir) :
    ∃ below file d listed plain, disk.moduleOf below = .ok (file, d) ∧
      fs.listedPackage? below file d = some listed ∧ c = moduleCandidate fs asked listed plain := by
  unfold treeCandidates at member
  split at member
  · obtain ⟨below, -, offers⟩ := List.mem_filterMap.mp member
    unfold directoryCandidate? at offers
    split at offers
    · rename_i file d read
      obtain ⟨listed, plain, found, rfl⟩ := Option.pmap_eq_some_iff.mp offers
      exact ⟨below, file, d, listed, _, read, found, rfl⟩
    · cases offers
  · cases member

theorem read_eq_builtin_iff (raw : String) (workingDir : Path) :
    Pattern.read raw workingDir = .builtin ↔ raw = builtinPath := by
  unfold Pattern.read
  constructor
  · intro builtin
    by_contra other
    simp only [other, ↓reduceIte] at builtin
    split at builtin <;> cases builtin
  · rintro rfl
    rfl

/-- Every candidate has one of the three origins. -/
theorem candidate_offered {disk : Disk} {settings : Settings} {overlay : Overlay}
    {patterns : List String} {c : Candidate}
    (member : c ∈ candidates disk settings overlay patterns) :
    Offered disk (overlay.inFrontOf disk.fileSystem) settings patterns c := by
  have tree {asked : Bool} {dir : Path}
      (member : c ∈ treeCandidates disk (overlay.inFrontOf disk.fileSystem) asked dir) :
      Offered disk (overlay.inFrontOf disk.fileSystem) settings patterns c := by
    obtain ⟨below, file, d, listed, plain, read, found, rfl⟩ := mem_treeCandidates member
    exact .module asked plain read found
  rcases List.mem_append.mp member with early | examples
  · rcases List.mem_append.mp early with library | asked
    · unfold libraryCandidates at library
      split at library
      · rename_i roots home
        split at library
        · obtain ⟨p, listed, rfl⟩ := List.mem_pmap.mp library
          obtain ⟨dir, below, found⟩ := List.mem_filterMap.mp listed
          exact .library _ home below found
        · cases library
      · cases library
    · obtain ⟨raw, given, offers⟩ := List.mem_flatMap.mp asked
      unfold patternCandidates at offers
      split at offers
      · rename_i read
        rw [List.mem_singleton] at offers
        subst offers
        exact .builtin ((read_eq_builtin_iff raw settings.workingDir).mp read ▸ given)
      · exact tree offers
      · exact tree offers
  · unfold exampleCandidates at examples
    split at examples
    · split at examples
      · exact tree examples
      · cases examples
    · cases examples

/-! ## First candidates -/

theorem firsts_cons (head : Candidate) (rest : List Candidate) :
    firsts (head :: rest) = head :: firsts (rest.filter fun later => later.path ≠ head.path) := by
  simp only [firsts, List.eraseDupsBy_cons, ne_eq, decide_not, List.cons.injEq, true_and]
  congr 1
  exact List.filter_congr fun later _ => by simp

/-- A candidate behind all others is kept exactly if its path is still free. -/
theorem firsts_concat (cs : List Candidate) (c : Candidate) :
    firsts (cs ++ [c]) = if ∃ other ∈ cs, other.path = c.path then firsts cs else firsts cs ++ [c] := by
  cases cs with
  | nil => simp [firsts, List.eraseDupsBy_cons]
  | cons head rest =>
    rw [List.cons_append, firsts_cons, firsts_cons, List.filter_append]
    by_cases same : c.path = head.path
    · have taken : ∃ other ∈ head :: rest, other.path = c.path := ⟨head, by simp, same.symm⟩
      simp [same, ↓taken]
    · have ih := firsts_concat (rest.filter fun later => later.path ≠ head.path) c
      have free : (∃ other ∈ rest.filter fun later => later.path ≠ head.path, other.path = c.path) ↔
          ∃ other ∈ head :: rest, other.path = c.path := by
        constructor
        · rintro ⟨other, member, path⟩
          exact ⟨other, List.mem_cons_of_mem _ (List.mem_filter.mp member).1, path⟩
        · rintro ⟨other, member, path⟩
          rcases List.mem_cons.mp member with rfl | later
          · exact absurd path.symm same
          · exact ⟨other, List.mem_filter.mpr ⟨later, by simp [path, same]⟩, path⟩
      simp only [same, ne_eq, not_false_eq_true, decide_true, List.filter_cons_of_pos,
        List.filter_nil]
      rw [ih]
      simp only [free]
      split <;> rfl
termination_by cs.length
decreasing_by
  have := List.length_filter_le (fun later => decide (later.path ≠ head.path)) rest
  simp only [List.length_cons]
  omega

theorem mem_of_mem_firsts {cs : List Candidate} {c : Candidate} (member : c ∈ firsts cs) :
    c ∈ cs := by
  induction cs using List.reverseRecOn with
  | nil => simp [firsts] at member
  | append_singleton cs last ih =>
    rw [firsts_concat] at member
    split at member
    · exact List.mem_append_left _ (ih member)
    · rcases List.mem_append.mp member with old | new
      · exact List.mem_append_left _ (ih old)
      · exact List.mem_append_right _ new

/-- No path goes unserved. -/
theorem exists_first {cs : List Candidate} {c : Candidate} (member : c ∈ cs) :
    ∃ first ∈ firsts cs, first.path = c.path := by
  induction cs using List.reverseRecOn generalizing c with
  | nil => cases member
  | append_singleton cs last ih =>
    rw [firsts_concat]
    rcases List.mem_append.mp member with old | new
    · obtain ⟨first, kept, path⟩ := ih old
      split
      · exact ⟨first, kept, path⟩
      · exact ⟨first, List.mem_append_left _ kept, path⟩
    · rw [List.mem_singleton] at new
      subst new
      split
      · rename_i taken
        obtain ⟨other, earlier, path⟩ := taken
        obtain ⟨first, kept, same⟩ := ih earlier
        exact ⟨first, kept, same.trans path⟩
      · exact ⟨c, by simp, rfl⟩

/-- The first candidates have different paths. -/
theorem firsts_paths_nodup (cs : List Candidate) : ((firsts cs).map (·.path)).Nodup := by
  induction cs using List.reverseRecOn with
  | nil => simp [firsts]
  | append_singleton cs last ih =>
    rw [firsts_concat]
    split
    · exact ih
    · rename_i free
      rw [List.map_append, List.nodup_append]
      refine ⟨ih, by simp, ?_⟩
      intro path kept other new same
      obtain ⟨first, member, rfl⟩ := List.mem_map.mp kept
      simp only [List.map_cons, List.map_nil, List.mem_singleton] at new
      exact free ⟨first, mem_of_mem_firsts member, same.trans new⟩

end PackageLoader.Offers
