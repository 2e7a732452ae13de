import PackageLoader.Query.Discovery

/-! File systems that agree on a directory. Loading a package lists its directory, asks which of the
paths in it are directories, and reads those that are not; file systems that give the same answers
there give the same package. -/
namespace PackageLoader.Agreement

/-- Both list the directory alike and have the same contents for what is listed. -/
structure AgreeIn (fs fs' : FileSystem) (dir : Path) : Prop where
  listing : fs'.listing dir = fs.listing dir
  contents : ∀ files, fs.listing dir = .ok files → ∀ file ∈ files,
    fs'.contents file = fs.contents file

/-- Both list the same source files in the directory and have the same contents for them. -/
structure SameFiles (fs fs' : FileSystem) (dir : Path) : Prop where
  files : fs'.packageFiles dir = fs.packageFiles dir
  contents : ∀ files, fs.packageFiles dir = .ok files → ∀ file ∈ files,
    fs'.contents file = fs.contents file

variable {fs fs' : FileSystem}

/-! ## Files -/

theorem readSource_congr {file : Path} (same : fs'.contents file = fs.contents file) :
    fs'.readSource file = fs.readSource file := by
  rw [FileSystem.readSource, FileSystem.readSource, same]

theorem inspect_congr {file : Path} (same : fs'.contents file = fs.contents file) :
    fs'.inspect file = fs.inspect file := by
  rw [FileSystem.inspect, FileSystem.inspect, readSource_congr same]

theorem isExternalTest_congr {file : Path} (same : fs'.contents file = fs.contents file) :
    fs'.isExternalTest file = fs.isExternalTest file := by
  rw [FileSystem.isExternalTest, FileSystem.isExternalTest, readSource_congr same]

theorem mem_packageFiles {dir : Path} {files : List Path} (listed : fs.packageFiles dir = .ok files) :
    ∃ entries, fs.listing dir = .ok entries ∧ ∀ file ∈ files, file ∈ entries := by
  unfold FileSystem.packageFiles at listed
  cases found : fs.listing dir with
  | error cause => rw [found] at listed; cases listed
  | ok entries =>
    rw [found] at listed
    cases listed
    exact ⟨entries, rfl, fun file member => (List.mem_filter.mp member).1⟩

/-- What is alike for every path of a directory is alike for the source files in it. -/
theorem AgreeIn.sameFiles {dir : Path} (agree : AgreeIn fs fs' dir) (dirs : fs'.isDir = fs.isDir) :
    SameFiles fs fs' dir := by
  constructor
  · rw [FileSystem.packageFiles, FileSystem.packageFiles, agree.listing, dirs]
  · intro files listed file member
    obtain ⟨entries, found, inside⟩ := mem_packageFiles listed
    exact agree.contents entries found file (inside file member)

/-! ## Packages -/

/-- The compiled files of a package have the same contents in both. -/
def SameSources (fs fs' : FileSystem) (p : Package) : Prop :=
  ∀ file ∈ p.compiledFiles, fs'.contents file = fs.contents file

theorem resolve_congr {p : Package} (same : SameSources fs fs' p) : p.resolve fs' = p.resolve fs := by
  have reports : p.compiledFiles.map fs'.inspect = p.compiledFiles.map fs.inspect :=
    List.map_congr_left fun file member => inspect_congr (same file member)
  rw [Package.resolve, Package.resolve, reports]

theorem splitFiles_congr {moves moves' : Path → Bool} {files compiled : List Path}
    (same : ∀ file ∈ compiled, moves' file = moves file) :
    Package.splitFiles moves' files compiled = Package.splitFiles moves files compiled := by
  induction compiled generalizing files with
  | nil => rfl
  | cons file rest ih =>
    rw [Package.splitFiles, Package.splitFiles, same file (List.mem_cons_self ..),
      ih fun other member => same other (List.mem_cons_of_mem _ member)]

theorem mem_splitFiles (moves : Path → Bool) (files compiled : List Path) :
    (∀ file ∈ (Package.splitFiles moves files compiled).compiledFiles, file ∈ compiled) ∧
      ∀ file ∈ (Package.splitFiles moves files compiled).moved, file ∈ compiled := by
  induction compiled generalizing files with
  | nil => simp [Package.splitFiles]
  | cons head rest ih =>
    obtain ⟨kept, moved⟩ := ih files.tail
    rw [Package.splitFiles]
    split
    · constructor
      · intro file member
        exact List.mem_cons_of_mem _ (kept file member)
      · intro file member
        rcases List.mem_cons.mp member with rfl | later
        · exact List.mem_cons_self ..
        · exact List.mem_cons_of_mem _ (moved file later)
    · constructor
      · intro file member
        rcases List.mem_cons.mp member with rfl | later
        · exact List.mem_cons_self ..
        · exact List.mem_cons_of_mem _ (kept file later)
      · intro file member
        exact List.mem_cons_of_mem _ (moved file member)

theorem splitTests_congr {p : Package} (same : SameSources fs fs' p) :
    p.splitTests fs' = p.splitTests fs := by
  rw [Package.splitTests, Package.splitTests,
    splitFiles_congr fun file member => isExternalTest_congr (same file member)]

theorem splitTests_sources {p : Package} (same : SameSources fs fs' p) :
    SameSources fs fs' (p.splitTests fs).1 ∧ SameSources fs fs' (p.splitTests fs).2 := by
  obtain ⟨kept, moved⟩ := mem_splitFiles fs.isExternalTest p.files p.compiledFiles
  constructor
  · intro file member
    exact same file (kept file member)
  · intro file member
    have listed : file ∈ (p.externalTest.pushFiles
        (Package.splitFiles fs.isExternalTest p.files p.compiledFiles).moved).compiledFiles := member
    rw [Package.pushFiles_compiledFiles] at listed
    exact same file (moved file (by simpa [Package.externalTest, Package.new] using listed))

/-- Both make the same package and the same external tests of a list of files. -/
theorem resolveWithTests_congr {p : Package} (same : SameSources fs fs' p) :
    p.resolveWithTests fs' = p.resolveWithTests fs := by
  obtain ⟨base, tests⟩ := splitTests_sources same
  have named : SameSources fs fs' { (p.splitTests fs).2 with
      name := ((p.splitTests fs).1.resolve fs).name ++ testSuffix } := tests
  simp only [Package.resolveWithTests, splitTests_congr same, resolve_congr base, resolve_congr named]

section Modules

variable {dir : Path} (same : SameFiles fs fs' dir) (descriptor : Path) (d : Descriptor)
include same

theorem listedPackage?_congr :
    fs'.listedPackage? dir descriptor d = fs.listedPackage? dir descriptor d := by
  rw [FileSystem.listedPackage?, FileSystem.listedPackage?, same.files]

theorem listedPackage?_sources {p : Package} (found : fs.listedPackage? dir descriptor d = some p) :
    SameSources fs fs' p := by
  unfold FileSystem.listedPackage? at found
  split at found
  · cases found
  · rename_i files _ read
    cases found
    intro file member
    rw [Package.pushFiles_compiledFiles] at member
    exact same.contents files read file (by simpa [Package.new] using member)
  · cases found
    exact fun file member => by cases member

/-- Both offer the same for a module. -/
theorem modulePackages_congr :
    fs'.modulePackages dir descriptor d = fs.modulePackages dir descriptor d := by
  rw [FileSystem.modulePackages, FileSystem.modulePackages, listedPackage?_congr same]
  cases found : fs.listedPackage? dir descriptor d with
  | none => rfl
  | some p => simp only [resolveWithTests_congr (listedPackage?_sources same descriptor d found)]

end Modules

/-! ## Library packages -/

theorem mem_addTestFile {p : Package} {added file : Path}
    (member : file ∈ (p.addTestFile added).compiledFiles) : file ∈ p.compiledFiles ∨ file = added := by
  unfold Package.addTestFile at member
  split at member
  · exact List.mem_or_eq_of_mem_set member
  · simpa [Package.pushFile] using member

theorem mem_foldl_addTestFile {p : Package} {files : List Path} {file : Path}
    (member : file ∈ (files.foldl Package.addTestFile p).compiledFiles) :
    file ∈ p.compiledFiles ∨ file ∈ files := by
  induction files generalizing p with
  | nil => exact Or.inl member
  | cons head rest ih =>
    rcases ih member with early | late
    · rcases mem_addTestFile early with old | rfl
      · exact Or.inl old
      · exact Or.inr (List.mem_cons_self ..)
    · exact Or.inr (List.mem_cons_of_mem _ late)

theorem addTestFiles_congr {p : Package} {dir : Path} (dirs : fs'.isDir = fs.isDir)
    (alike : fs.isDir dir = true → SameFiles fs fs' dir) (same : SameSources fs fs' p) :
    p.addTestFiles fs' dir = p.addTestFiles fs dir ∧ SameSources fs fs' (p.addTestFiles fs dir) := by
  unfold Package.addTestFiles
  rw [dirs]
  split
  · rename_i there
    have alike := alike there
    rw [alike.files]
    refine ⟨rfl, ?_⟩
    split
    · rename_i files listed
      intro file member
      rcases mem_foldl_addTestFile member with old | new
      · exact same file old
      · exact alike.contents files listed file new
    · exact same
  · exact ⟨rfl, same⟩

/-- Both find the same library package in a directory. -/
theorem libraryPackage?_congr {roots : LibraryRoots} {dir : Path} (dirs : fs'.isDir = fs.isDir)
    (alike : SameFiles fs fs' dir)
    (tests : ∀ path, libraryPath? roots.packages dir = some path →
      fs.isDir (roots.tests.child path) = true → SameFiles fs fs' (roots.tests.child path)) :
    fs'.libraryPackage? roots dir = fs.libraryPackage? roots dir := by
  unfold FileSystem.libraryPackage?
  rw [alike.files]
  cases place : libraryPath? roots.packages dir with
  | none => rfl
  | some path =>
    cases listed : fs.packageFiles dir with
    | error cause => rfl
    | ok files =>
      cases files with
      | nil => rfl
      | cons file files =>
        have same : SameSources fs fs' ((Package.new path .library).pushFiles (file :: files)) := by
          intro source member
          rw [Package.pushFiles_compiledFiles] at member
          exact alike.contents _ listed source (by simpa [Package.new] using member)
        obtain ⟨added, sources⟩ := addTestFiles_congr dirs (tests path place) same
        simp only [added, resolveWithTests_congr sources]

end PackageLoader.Agreement
