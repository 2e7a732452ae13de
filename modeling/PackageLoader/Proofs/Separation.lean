import PackageLoader.Proofs.Offers

/-! What becomes of the files that a package is assembled from. As long as both file lists are in step,
taking out the external tests is a stable partition of them, and this is so for every candidate: a
module starts with the listing of its directory, a library package with its directory and the files
for tests put over it. -/
namespace PackageLoader.Separation
open Offers

variable {disk : Disk} {fs : FileSystem} {settings : Settings} {overlay : Overlay}
  {patterns : List String}

/-! ## File lists in step -/

/-- Both file lists of a package are the same. -/
def InStep (p : Package) : Prop :=
  p.files = p.compiledFiles

theorem new_inStep (path : String) (origin : Origin) : InStep (.new path origin) := rfl

/-- Adding files changes the file lists and nothing else. -/
theorem pushFiles_eq (p : Package) (files : List Path) : p.pushFiles files =
    { p with files := p.files ++ files, compiledFiles := p.compiledFiles ++ files } := by
  induction files generalizing p with
  | nil => simp [Package.pushFiles]
  | cons file rest ih => simpa [Package.pushFiles, Package.pushFile] using ih (p.pushFile file)

theorem pushFiles_inStep {p : Package} (step : InStep p) (files : List Path) :
    InStep (p.pushFiles files) := by
  rw [pushFiles_eq]
  exact congrArg (· ++ files) step

theorem addTestFile_inStep {p : Package} (step : InStep p) (file : Path) :
    InStep (p.addTestFile file) := by
  unfold Package.addTestFile
  split
  · rename_i index _
    exact congrArg (·.set index file) step
  · exact congrArg (· ++ [file]) step

/-- Files for tests take the place of others or join them, so none makes the list shorter. -/
theorem addTestFile_length (p : Package) (file : Path) :
    p.files.length ≤ (p.addTestFile file).files.length := by
  unfold Package.addTestFile
  split
  · simp [Package.replaceFile]
  · simp [Package.pushFile]

theorem foldl_addTestFile {p : Package} (step : InStep p) (files : List Path) :
    InStep (files.foldl Package.addTestFile p) ∧
      p.files.length ≤ (files.foldl Package.addTestFile p).files.length := by
  induction files generalizing p with
  | nil => exact ⟨step, Nat.le_refl _⟩
  | cons file rest ih =>
    obtain ⟨rest_step, longer⟩ := ih (addTestFile_inStep step file)
    exact ⟨rest_step, Nat.le_trans (addTestFile_length p file) longer⟩

theorem addTestFiles_inStep {p : Package} (step : InStep p) (fs : FileSystem) (dir : Path) :
    InStep (p.addTestFiles fs dir) ∧ p.files.length ≤ (p.addTestFiles fs dir).files.length := by
  unfold Package.addTestFiles
  split
  · split
    · exact foldl_addTestFile step _
    · exact ⟨step, Nat.le_refl _⟩
  · exact ⟨step, Nat.le_refl _⟩

/-! ## Taking out external tests -/

/-- The compiled files are parted in order, and files behind them stay where they are. -/
theorem splitFiles_append (moves : Path → Bool) (compiled extra : List Path) :
    Package.splitFiles moves (compiled ++ extra) compiled =
      ⟨compiled.filter (!moves ·) ++ extra, compiled.filter (!moves ·), compiled.filter moves⟩ := by
  induction compiled with
  | nil => rfl
  | cons file rest ih =>
    rw [List.cons_append, Package.splitFiles, List.tail_cons, ih]
    cases moved : moves file <;> simp [moved]

section Resolving

variable (p : Package) (fs : FileSystem)

theorem splitTests_files (step : InStep p) :
    (p.splitTests fs).1.files = p.files.filter (!fs.isExternalTest ·) ∧
      (p.splitTests fs).1.compiledFiles = p.files.filter (!fs.isExternalTest ·) ∧
      (p.splitTests fs).2.files = p.files.filter fs.isExternalTest ∧
      (p.splitTests fs).2.compiledFiles = p.files.filter fs.isExternalTest := by
  have parted := splitFiles_append fs.isExternalTest p.files []
  rw [List.append_nil, List.append_nil] at parted
  rw [Package.splitTests, ← show p.files = p.compiledFiles from step, parted]
  rw [pushFiles_eq]
  exact ⟨rfl, rfl, rfl, rfl⟩

/-- A resolved package keeps the files that are no external tests, and its external tests are the
others. -/
theorem resolveWithTests_files (step : InStep p) :
    (p.resolveWithTests fs).1.files = p.files.filter (!fs.isExternalTest ·) ∧
      InStep (p.resolveWithTests fs).1 ∧
      (p.resolveWithTests fs).2.files = p.files.filter fs.isExternalTest ∧
      InStep (p.resolveWithTests fs).2 := by
  obtain ⟨files, compiled, tests, testsCompiled⟩ := splitTests_files p fs step
  exact ⟨files, files.trans compiled.symm, tests, tests.trans testsCompiled.symm⟩

theorem resolveWithTests_module? :
    (p.resolveWithTests fs).1.module? = p.module? ∧ (p.resolveWithTests fs).2.module? = p.module? := by
  rw [Package.resolveWithTests, Package.splitTests, pushFiles_eq]
  exact ⟨rfl, rfl⟩

/-- External tests are named after their base. -/
theorem resolveWithTests_name :
    (p.resolveWithTests fs).2.name = (p.resolveWithTests fs).1.name ++ testSuffix := by
  have named : ((p.resolveWithTests fs).1.name ++ testSuffix).isEmpty = false := by
    simp [String.isEmpty_eq_false_iff, testSuffix]
  exact if_neg (by rw [Bool.not_eq_true]; exact named)

/-- A package that had an error before still has it. -/
theorem resolveWithTests_errors (clean : (p.resolveWithTests fs).1.errors = []) : p.errors = [] :=
  (List.append_eq_nil_iff.mp clean).1

end Resolving

/-! ## Candidates -/

/-- The source files in a directory; there are none in one that cannot be listed. -/
def sourcesIn (fs : FileSystem) (dir : Path) : List Path :=
  (fs.packageFiles dir).toOption.getD []

/-- What a package is assembled from before its external tests are taken out: the sources in the
directory of its module, or those in a library directory with the files for tests put over them. -/
inductive AssembledFrom (disk : Disk) (fs : FileSystem) (settings : Settings) (p : Package) :
    List Path → Prop where
  | module {m : Module} (origin : p.origin = .workspace) (home : p.module? = some m) :
      AssembledFrom disk fs settings p (sourcesIn fs m.dir)
  | library {roots : LibraryRoots} {dir : Path} {path : String} (origin : p.origin = .library)
      (home : settings.root?.map LibraryRoots.within = some roots)
      (below : dir ∈ disk.directoriesBelow roots.packages)
      (place : libraryPath? roots.packages dir = some path) (named : p.path = path) :
      AssembledFrom disk fs settings p (((Package.new path .library).pushFiles
        (sourcesIn fs dir)).addTestFiles fs (roots.tests.child path)).files

/-- A module starts with the sources in its directory. If it has none, that is an error by then. -/
theorem listed_package_sources {dir file : Path} {d : Descriptor} {p : Package}
    (found : fs.listedPackage? dir file d = some p) :
    p.files = sourcesIn fs dir ∧ InStep p ∧ p.module? = some ⟨d.module, dir, file⟩ ∧
      (p.errors = [] → p.files ≠ []) := by
  unfold FileSystem.listedPackage? at found
  unfold sourcesIn
  split at found
  · cases found
  · rename_i files nonempty listed
    cases found
    rw [pushFiles_eq, listed]
    exact ⟨rfl, rfl, rfl, fun _ => nonempty⟩
  · rename_i cause failed
    cases found
    rw [failed]
    exact ⟨rfl, rfl, rfl, fun clean => by cases clean⟩

/-- External tests beside the package that shares their directory and their module. -/
structure TestsOf (base tests : Package) : Prop where
  workspace : base.origin = .workspace
  origin : tests.origin = .externalTest
  path : tests.path = base.path ++ testSuffix
  id : tests.id = base.path ++ testSuffix
  name : tests.name = base.name ++ testSuffix
  module? : tests.module? = base.module?
  nonempty : tests.files ≠ []

/-- A candidate parts its sources: its package keeps those that are no external tests, and its
external tests, if it offers them, are the others. Only modules offer them. -/
structure Parts (disk : Disk) (fs : FileSystem) (settings : Settings) (c : Candidate)
    (sources : List Path) : Prop where
  assembled : AssembledFrom disk fs settings c.package sources
  sourced : c.package.errors = [] → sources ≠ []
  files : c.package.files = sources.filter (!fs.isExternalTest ·)
  inStep : InStep c.package
  tests : ∀ tests ∈ c.tests?, TestsOf c.package tests ∧ InStep tests ∧
    tests.files = sources.filter fs.isExternalTest
  untested : c.tests? = none → c.package.origin = .workspace →
    ∀ file ∈ sources, fs.isExternalTest file = false

theorem library_parts {roots : LibraryRoots} {dir : Path} {p : Package}
    (plain : p.isExternalTest = false) (home : settings.root?.map LibraryRoots.within = some roots)
    (below : dir ∈ disk.directoriesBelow roots.packages)
    (found : fs.libraryPackage? roots dir = some p) :
    ∃ sources, Parts disk fs settings (libraryCandidate p plain) sources := by
  have origin := (library_package_fields found).1
  unfold FileSystem.libraryPackage? at found
  split at found
  · rename_i path file files place listed
    have sources : sourcesIn fs dir = file :: files := by
      rw [sourcesIn, listed]
      rfl
    obtain ⟨step, longer⟩ := addTestFiles_inStep
      (pushFiles_inStep (new_inStep path .library) (sourcesIn fs dir)) fs (roots.tests.child path)
    have nonempty : (((Package.new path .library).pushFiles (sourcesIn fs dir)).addTestFiles fs
        (roots.tests.child path)).files ≠ [] := by
      intro empty
      rw [empty, Package.pushFiles_files, sources] at longer
      simp [Package.new] at longer
    obtain ⟨kept, keptStep, -, -⟩ := resolveWithTests_files _ fs step
    have named := ((addTestFiles_keeps ((Package.new path .library).pushFiles (sourcesIn fs dir)) fs
      (roots.tests.child path)).trans (pushFiles_keeps _ _)).path
    rw [← sources] at found
    cases found
    exact ⟨_, {
      assembled := .library origin home below place named
      sourced := fun _ => nonempty
      files := kept
      inStep := keptStep
      tests := fun tests impossible => by cases impossible
      untested := fun _ workspace => by cases origin.symm.trans workspace }⟩
  · cases found

theorem module_parts {asked : Bool} {dir file : Path} {d : Descriptor} {listed : Package}
    (plain : listed.isExternalTest = false)
    (found : fs.listedPackage? dir file d = some listed) :
    Parts disk fs settings (moduleCandidate fs asked listed plain) (sourcesIn fs dir) := by
  obtain ⟨origin, path, id⟩ := listed_package_fields found
  obtain ⟨sources, step, module, nonempty⟩ := listed_package_sources found
  obtain ⟨kept, keptStep, moved, movedStep⟩ := resolveWithTests_files listed fs step
  obtain ⟨own, theirs⟩ := resolveWithTests_module? listed fs
  obtain ⟨testOrigin, testPath, testId⟩ := test_package_fields listed fs
  rw [sources] at kept moved
  exact {
    assembled := .module (m := ⟨d.module, dir, file⟩) origin (own.trans module)
    sourced := fun clean => sources ▸ nonempty (resolveWithTests_errors listed fs clean)
    files := kept
    inStep := keptStep
    tests := by
      intro tests offered
      obtain ⟨rfl, files⟩ := mem_moduleCandidate_tests.mp offered
      refine ⟨⟨origin, testOrigin, testPath, testId, resolveWithTests_name listed fs,
        theirs.trans own.symm, ?_⟩, movedStep, moved⟩
      simpa [Package.hasFiles] using files
    untested := by
      intro none _ source member
      by_contra moves
      have offered : (listed.resolveWithTests fs).2 ∈
          (moduleCandidate fs asked listed plain).tests? := by
        refine mem_moduleCandidate_tests.mpr ⟨rfl, ?_⟩
        have moved_mem : source ∈ (listed.resolveWithTests fs).2.files := by
          rw [moved]
          exact List.mem_filter.mpr ⟨member, by simpa using moves⟩
        simpa [Package.hasFiles] using List.ne_nil_of_mem moved_mem
      rw [none] at offered
      cases offered }

/-- Every candidate but the builtin package parts its sources. -/
theorem candidate_parts {c : Candidate} (member : c ∈ candidates disk settings overlay patterns) :
    c = builtinCandidate settings.builtinDir ∨
      ∃ sources, Parts disk (overlay.inFrontOf disk.fileSystem) settings c sources := by
  cases candidate_offered member with
  | library plain home below found => exact Or.inr (library_parts plain home below found)
  | builtin given => exact Or.inl rfl
  | module asked plain read found => exact Or.inr ⟨_, module_parts plain found⟩

end PackageLoader.Separation
