import Mathlib.Data.List.Perm.Basic
import PackageLoader.Proofs.HollowPackages
import PackageLoader.Proofs.Resolution

/-! Resolution is the sum of its files. A package and its external tests share out the files that were
listed, and what each of them gets to know is what its own files give: their imports, one error for
each file that cannot be read or has a malformed header, and a vote for each clause. No file gives
anything to both. -/
namespace PackageLoader.FileSums
open ExternalTests Resolution Separation

/-! ## What files give -/

/-- Files in order with what they give, one item for each file that gives anything. -/
inductive Gathered {α : Type} (gives : Path → α → Prop) : List Path → List (Path × α) → Prop where
  | none : Gathered gives [] []
  | silent {file : Path} {files : List Path} {found : List (Path × α)}
      (nothing : ∀ item, ¬ gives file item) (rest : Gathered gives files found) :
      Gathered gives (file :: files) found
  | given {file : Path} {item : α} {files : List Path} {found : List (Path × α)}
      (item_given : gives file item) (rest : Gathered gives files found) :
      Gathered gives (file :: files) ((file, item) :: found)

/-- The error of a file: it cannot be read, or its header is malformed. -/
inductive FileFault (fs : FileSystem) (file : Path) : PackageError → Prop where
  | unreadable {cause : StorageError} (failed : fs.contents file = .error cause) :
      FileFault fs file ⟨file.text ++ ":1", cause.message, .parsing⟩
  | malformed {source : SourceFile} {e : HeaderError} (read : fs.readSource file = .ok source)
      (refused : (parseHeader .withImports source.text).error? = some e) :
      FileFault fs file
        ⟨file.text ++ ":" ++ (source.lineCol e.span.start).describe, e.message, .parsing⟩

/-- The package clause of a file can be read and has this name. -/
def Declares (fs : FileSystem) (file : Path) (name : String) : Prop :=
  ∃ source header, fs.readSource file = .ok source ∧
    (parseHeader .withImports source.text).header? = some header ∧ header.package.name = name

section Gathering

variable {α : Type} {gives : Path → α → Prop}

theorem gathered_filterMap {read : Path → Option α}
    (reads : ∀ file item, read file = some item ↔ gives file item) (files : List Path) :
    Gathered gives files (files.filterMap fun file => (read file).map (file, ·)) := by
  induction files with
  | nil => exact .none
  | cons file files ih =>
    cases found : read file with
    | none =>
      rw [List.filterMap_cons_none (by rw [found]; rfl)]
      refine .silent (fun item given => ?_) ih
      cases found.symm.trans ((reads file item).mpr given)
    | some item =>
      rw [List.filterMap_cons_some (by rw [found]; rfl)]
      exact .given ((reads file item).mp found) ih

theorem Gathered.sublist {files : List Path} {found : List (Path × α)}
    (gathered : Gathered gives files found) : (found.map (·.1)).Sublist files := by
  induction gathered with
  | none => exact .slnil
  | silent _ _ ih => exact ih.cons _
  | given _ _ ih => exact ih.cons_cons _

theorem Gathered.mem {files : List Path} {found : List (Path × α)}
    (gathered : Gathered gives files found) {entry : Path × α} (member : entry ∈ found) :
    entry.1 ∈ files ∧ gives entry.1 entry.2 := by
  induction gathered with
  | none => cases member
  | silent _ _ ih => exact (ih member).imp_left (List.mem_cons_of_mem _)
  | given item_given _ ih =>
    rcases List.mem_cons.mp member with rfl | later
    · exact ⟨List.mem_cons_self, item_given⟩
    · exact (ih later).imp_left (List.mem_cons_of_mem _)

/-- If every file gives something, nothing is found only among no files. -/
theorem Gathered.eq_nil_iff {files : List Path} {found : List (Path × α)}
    (gathered : Gathered gives files found) (all : ∀ file ∈ files, ∃ item, gives file item) :
    found = [] ↔ files = [] := by
  cases gathered with
  | none => exact ⟨fun _ => rfl, fun _ => rfl⟩
  | silent nothing _ =>
    obtain ⟨item, item_given⟩ := all _ List.mem_cons_self
    exact absurd item_given (nothing item)
  | given _ _ => exact iff_of_false (List.cons_ne_nil _ _) (List.cons_ne_nil _ _)

end Gathering

section Files

variable (fs : FileSystem)

theorem readSource_path {file : Path} {source : SourceFile} (read : fs.readSource file = .ok source) :
    source.path = file := by
  unfold FileSystem.readSource at read
  split at read
  · cases read
    rfl
  · cases read

/-- A file has at most one error. -/
theorem inspect_errors (file : Path) :
    (fs.inspect file).errors = (fs.inspect file).errors.head?.toList := by
  unfold FileSystem.inspect
  cases fs.readSource file with
  | error cause => rfl
  | ok source =>
    simp only
    cases (parseHeader .withImports source.text).error? <;> rfl

theorem inspect_fault (file : Path) (e : PackageError) :
    (fs.inspect file).errors.head? = some e ↔ FileFault fs file e := by
  constructor
  · intro found
    unfold FileSystem.inspect at found
    cases read : fs.readSource file with
    | error cause =>
      rw [read] at found
      cases found
      unfold FileSystem.readSource at read
      split at read
      · cases read
      · rename_i failed
        cases read
        exact .unreadable failed
    | ok source =>
      rw [read] at found
      cases refused : (parseHeader .withImports source.text).error? with
      | none => simp [refused] at found
      | some fault =>
        simp only [refused, Option.toList_some, List.map_cons, List.head?_cons,
          Option.some.injEq] at found
        rw [← found, HeaderError.position, SourceFile.location, readSource_path fs read]
        exact .malformed read refused
  · intro fault
    cases fault with
    | unreadable failed => rw [FileSystem.inspect, FileSystem.readSource, failed]; rfl
    | @malformed source fault read refused =>
      rw [FileSystem.inspect, read]
      simp only [refused, Option.toList_some, List.map_cons, List.head?_cons, HeaderError.position,
        SourceFile.location, readSource_path fs read]

theorem inspect_declares (file : Path) (name : String) :
    (fs.inspect file).header?.map (·.package.name) = some name ↔ Declares fs file name := by
  unfold FileSystem.inspect Declares
  cases fs.readSource file with
  | error cause => simp
  | ok source => simp [Option.map_eq_some_iff]

/-! ## Packages -/

/-- A package is the sum of its sources: it lists them, and its imports and its errors behind some
earlier ones are what they give. The reports say which file each of these errors comes from. -/
structure SumOf (sources : List Path) (earlier : List PackageError) (p : Package)
    (reports : List (Path × PackageError)) : Prop where
  files : p.files = sources
  inStep : InStep p
  imports : ∀ path target?, p.imports.get? path = some target? ↔
    target? = none ∧ ∃ file ∈ sources, ImportsPath fs file path
  faults : Gathered (FileFault fs) sources reports
  errors : p.errors = earlier ++ reports.map (·.2)

theorem inspected_errors (files : List Path) : (files.map fs.inspect).flatMap (·.errors) =
    (files.filterMap fun file => ((fs.inspect file).errors.head?).map (file, ·)).map (·.2) := by
  induction files with
  | nil => rfl
  | cons file files ih =>
    rw [List.map_cons, List.flatMap_cons, ih, inspect_errors, List.filterMap_cons]
    cases (fs.inspect file).errors.head? <;> rfl

theorem inspected_names (files : List Path) :
    ((files.map fs.inspect).filterMap (·.header?)).map (·.package.name) =
      (files.filterMap fun file =>
        ((fs.inspect file).header?.map (·.package.name)).map (file, ·)).map (·.2) := by
  simp [List.filterMap_map, List.map_filterMap, Function.comp_def]

theorem resolve_sums {p : Package} (step : InStep p) :
    ∃ reports, SumOf fs p.files p.errors (p.resolve fs) reports := by
  refine ⟨_, rfl, step, fun path target? => ?_, gathered_filterMap (inspect_fault fs) p.files, ?_⟩
  · rw [show p.files = p.compiledFiles from step]
    exact resolve_imports p fs path target?
  · rw [← inspected_errors, show p.files = p.compiledFiles from step]
    rfl

/-- A package without a name gets one by a vote of the clauses that can be read. -/
theorem resolve_name {p : Package} (step : InStep p) :
    ∃ clauses, Gathered (Declares fs) p.files clauses ∧ (p.resolve fs).name =
      if p.name = "" then (NameVote.winner? (clauses.map (·.2))).getD "" else p.name := by
  refine ⟨_, gathered_filterMap (inspect_declares fs) p.files, ?_⟩
  rw [← inspected_names, show p.files = p.compiledFiles from step]
  simp only [← String.isEmpty_iff]
  rfl

instance (file : Path) (name : String) : Decidable (Declares fs file name) :=
  decidable_of_iff _ (inspect_declares fs file name)

end Files

/-! ## Votes -/

/-- What is known after some votes: the name in the lead is one of those voted for that count, and
none is in the lead only if none of them counts. -/
structure Voted (names : List String) (v : NameVote) : Prop where
  leader : ∀ name ∈ v.leader?, name ∈ names ∧ isTestName name = false
  leaderless : v.leader? = none → v.lead = 0 ∧ ∀ name ∈ names, isTestName name = true

theorem voted_vote {names : List String} {v : NameVote} (voted : Voted names v) (name : String) :
    Voted (names ++ [name]) (v.vote name) := by
  have kept : ∀ leader ∈ v.leader?, leader ∈ names ++ [name] ∧ isTestName leader = false := by
    intro leader leads
    obtain ⟨member, counts⟩ := voted.leader leader leads
    exact ⟨List.mem_append_left _ member, counts⟩
  by_cases ignored : isTestName name = true
  · rw [NameVote.vote, if_pos ignored]
    refine ⟨kept, fun none => ?_⟩
    obtain ⟨zero, tests⟩ := voted.leaderless none
    refine ⟨zero, fun other member => ?_⟩
    rcases List.mem_append.mp member with before | last
    · exact tests other before
    · rwa [List.mem_singleton.mp last]
  · rw [NameVote.vote, if_neg ignored]
    rw [Bool.not_eq_true] at ignored
    by_cases ahead : v.count name + 1 > v.lead
    · simp only [if_pos ahead]
      refine ⟨fun leader leads => ?_, fun none => by cases none⟩
      cases leads
      exact ⟨List.mem_append_right _ (List.mem_singleton_self _), ignored⟩
    · simp only [if_neg ahead]
      refine ⟨kept, fun none => absurd ?_ ahead⟩
      -- without a leader nobody has a vote yet, so one is enough
      rw [(voted.leaderless none).1]
      exact Nat.succ_pos _

theorem voted_votes (names : List String) : Voted names (names.foldl NameVote.vote {}) := by
  have voted (before : List String) (v : NameVote) (start : Voted before v) :
      Voted (before ++ names) (names.foldl NameVote.vote v) := by
    induction names generalizing before v with
    | nil => rwa [List.append_nil]
    | cons name names ih =>
      rw [List.append_cons]
      exact ih _ _ (voted_vote start name)
  refine voted [] {} ⟨fun _ leads => ?_, fun _ => ⟨rfl, fun _ member => ?_⟩⟩
  · cases leads
  · cases member

/-- The winner of a vote was voted for and counts. -/
theorem mem_of_winner {names : List String} {name : String}
    (won : NameVote.winner? names = some name) : name ∈ names ∧ isTestName name = false :=
  (voted_votes names).leader name won

/-- A vote has no winner exactly if all votes are for external test packages. -/
theorem winner_eq_none_iff {names : List String} :
    NameVote.winner? names = none ↔ ∀ name ∈ names, isTestName name = true := by
  constructor
  · exact fun none => ((voted_votes names).leaderless none).2
  · intro tests
    cases won : NameVote.winner? names with
    | none => rfl
    | some name =>
      obtain ⟨member, counts⟩ := mem_of_winner won
      rw [tests name member] at counts
      cases counts

/-! ## A package and its external tests -/

section Resolved

variable (fs : FileSystem) {p : Package}

theorem base_sums (step : InStep p) : ∃ reports,
    SumOf fs (p.files.filter (!fs.isExternalTest ·)) p.errors (p.resolveWithTests fs).1 reports := by
  obtain ⟨files, compiled, -, -⟩ := splitTests_files p fs step
  have sums := resolve_sums fs (files.trans compiled.symm)
  rwa [files] at sums

theorem tests_sums (step : InStep p) : ∃ reports,
    SumOf fs (p.files.filter fs.isExternalTest) [] (p.resolveWithTests fs).2 reports := by
  obtain ⟨named, files, compiled, clean, resolved⟩ : ∃ named : Package,
      named.files = p.files.filter fs.isExternalTest ∧
      named.compiledFiles = p.files.filter fs.isExternalTest ∧ named.errors = [] ∧
      (p.resolveWithTests fs).2 = named.resolve fs := by
    obtain ⟨-, -, files, compiled⟩ := splitTests_files p fs step
    refine ⟨{ (p.splitTests fs).2 with name := (p.resolveWithTests fs).1.name ++ testSuffix },
      files, compiled, ?_, rfl⟩
    rw [Package.splitTests, pushFiles_eq]
    rfl
  have sums := resolve_sums fs (p := named) (files.trans compiled.symm)
  rwa [files, clean, ← resolved] at sums

theorem base_name (step : InStep p) : ∃ clauses,
    Gathered (Declares fs) (p.files.filter (!fs.isExternalTest ·)) clauses ∧
      (p.resolveWithTests fs).1.name =
        if p.name = "" then (NameVote.winner? (clauses.map (·.2))).getD "" else p.name := by
  obtain ⟨files, compiled, -, -⟩ := splitTests_files p fs step
  have named := resolve_name fs (files.trans compiled.symm)
  rwa [files] at named

end Resolved

/-- A package and its external tests are the sums of their files. The package keeps the files that are
no external tests, and behind its earlier errors both have one error for each of their files that
cannot be read or has a malformed header, so no file has errors in both or more of them than it has
places. A package without a name is called what its readable clauses vote for, and its external tests
are named after it. -/
theorem resolved_package_sums_files (fs : FileSystem) {p : Package} (step : InStep p) :
    let kept := p.files.filter (!fs.isExternalTest ·)
    let moved := p.files.filter fs.isExternalTest
    let base := (p.resolveWithTests fs).1
    let tests := (p.resolveWithTests fs).2
    (∀ file, fs.isExternalTest file = true ↔ ExternalTestFile fs file) ∧
      (∃ reports testReports, SumOf fs kept p.errors base reports ∧
        SumOf fs moved [] tests testReports ∧
        (∀ file, ((reports ++ testReports).map (·.1)).count file ≤ p.files.count file) ∧
        ∀ file ∈ reports.map (·.1), file ∉ testReports.map (·.1)) ∧
      (∃ clauses, Gathered (Declares fs) kept clauses ∧
        base.name =
          (if p.name = "" then (NameVote.winner? (clauses.map (·.2))).getD "" else p.name) ∧
        (NameVote.winner? (clauses.map (·.2)) = none ↔
          ∀ clause ∈ clauses, isTestName clause.2 = true)) ∧
      tests.name = base.name ++ testSuffix := by
  intro kept moved base tests
  obtain ⟨reports, sums⟩ := base_sums fs step
  obtain ⟨testReports, testSums⟩ := tests_sums fs step
  obtain ⟨clauses, gathered, named⟩ := base_name fs step
  have own := sums.faults.sublist
  have theirs := testSums.faults.sublist
  have shared (file : Path) : ((reports ++ testReports).map (·.1)).count file ≤ p.files.count file := by
    have parted : (moved ++ kept).Perm p.files :=
      List.filter_append_perm fs.isExternalTest p.files
    rw [List.map_append, List.count_append, ← parted.count_eq, List.count_append, Nat.add_comm]
    exact Nat.add_le_add (theirs.count_le file) (own.count_le file)
  have apart (file : Path) (reported : file ∈ reports.map (·.1)) : file ∉ testReports.map (·.1) := by
    intro again
    have stays := (List.mem_filter.mp (own.subset reported)).2
    have moves := (List.mem_filter.mp (theirs.subset again)).2
    rw [moves] at stays
    cases stays
  refine ⟨isExternalTest_iff fs, ⟨reports, testReports, sums, testSums, shared, apart⟩,
    ⟨clauses, gathered, named, ?_⟩, resolveWithTests_name p fs⟩
  rw [winner_eq_none_iff, List.forall_mem_map]

/-- Files with broken headers, one for the package and one for its external tests. -/
def brokenDisk : Disk :=
  HollowPackages.diskOf [("/w/a.gno", "package a\nimport \"x\"\n"),
    ("/w/bad_test.gno", "packag a_test\n"), ("/w/x_test.gno", "package a_test\nimport \"y\"\nimport\n")]

/-- A package of these files and of one that does not exist, with an error from before. -/
def brokenPackage : Package :=
  { (Package.new "a" .workspace).pushFiles
      [⟨"/w/a.gno"⟩, ⟨"/w/bad_test.gno"⟩, ⟨"/w/gone.gno"⟩, ⟨"/w/x_test.gno"⟩] with
    errors := [⟨"/w:1", "module", .listing⟩] }

/-- The broken files are reported once, where they are listed. -/
theorem broken_package_sums_files :
    let base := (brokenPackage.resolveWithTests brokenDisk.fileSystem).1
    let tests := (brokenPackage.resolveWithTests brokenDisk.fileSystem).2
    InStep brokenPackage ∧
      (base.errors.map (·.position) = ["/w:1", "/w/bad_test.gno:1:1", "/w/gone.gno:1"] ∧
        tests.errors.map (·.position) = ["/w/x_test.gno:4:1"] ∧
        base.name = "a" ∧ tests.name = "a_test") ∧
      ∃ reports testReports,
        SumOf brokenDisk.fileSystem base.files brokenPackage.errors base reports ∧
        SumOf brokenDisk.fileSystem tests.files [] tests testReports := by
  intro base tests
  obtain ⟨-, ⟨reports, testReports, sums, testSums, -⟩, -, -⟩ :=
    resolved_package_sums_files brokenDisk.fileSystem (p := brokenPackage) rfl
  rw [← sums.files] at sums
  rw [← testSums.files] at testSums
  exact ⟨rfl, by decide +kernel, reports, testReports, sums, testSums⟩

end PackageLoader.FileSums
