import PackageLoader.Proofs.FileSums

/-! Names when all clauses agree. If every file of a directory declares one name, or in a test file that
name with the test suffix, the package gets this name and its external tests the other one. They are
named after the package though, not by a vote of their own: where external tests stand alone, there is
nothing to vote for, and both are left without the name. -/
namespace PackageLoader.ConsistentClauses
open ExternalTests FileSums Separation

variable {fs : FileSystem} {name : String} {file : Path}

/-! ## Clauses -/

/-- A file says which package of its directory it belongs to: it declares the name, or its file name is
that of a test and it declares the name of external tests. -/
def Agrees (fs : FileSystem) (name : String) (file : Path) : Prop :=
  Declares fs file name ∨
    file.fileName?.any isTestFile = true ∧ Declares fs file (name ++ testSuffix)

instance : Decidable (Agrees fs name file) :=
  inferInstanceAs (Decidable (_ ∨ _))

theorem isTestName_append (name : String) : isTestName (name ++ testSuffix) = true := by
  unfold isTestName
  rw [String.toList_append]
  exact List.isSuffixOf_iff_suffix.mpr (List.suffix_append _ _)

/-- A file has one clause at most. -/
theorem declares_unique {other : String} (one : Declares fs file name)
    (two : Declares fs file other) : name = other := by
  obtain ⟨source, header, read, parsed, rfl⟩ := one
  obtain ⟨again, header', read', parsed', rfl⟩ := two
  cases read.symm.trans read'
  cases parsed.symm.trans parsed'
  rfl

/-- External tests are told by the clause of a test file. -/
theorem externalTest_of_declares (clause : Declares fs file name) :
    fs.isExternalTest file = true ↔
      file.fileName?.any isTestFile = true ∧ isTestName name = true := by
  rw [isExternalTest_iff]
  constructor
  · rintro ⟨called, source, header, named, test, read, parsed, suffixed⟩
    cases declares_unique clause ⟨source, header, read, parsed, rfl⟩
    exact ⟨by rw [named]; exact test, suffixed⟩
  · rintro ⟨test, suffixed⟩
    obtain ⟨source, header, read, parsed, rfl⟩ := clause
    obtain ⟨called, named, test⟩ := (Option.any_eq_true _ _).mp test
    exact ⟨called, source, header, named, test, read, parsed, suffixed⟩

section Agreeing

variable (plain : isTestName name = false)
include plain

/-- The file of a package that agrees on a name is an external test if it declares the name of one,
and it declares the name itself if it is none. -/
theorem externalTest_of_agrees (agrees : Agrees fs name file) :
    (fs.isExternalTest file = true ↔ Declares fs file (name ++ testSuffix)) ∧
      (fs.isExternalTest file = false ↔ Declares fs file name) := by
  rcases agrees with own | ⟨test, suffixed⟩
  · have stays : fs.isExternalTest file = false := by
      rw [← Bool.not_eq_true, externalTest_of_declares own, plain]
      exact fun moves => Bool.noConfusion moves.2
    refine ⟨⟨fun moves => ?_, fun other => ?_⟩, ⟨fun _ => own, fun _ => stays⟩⟩
    · rw [stays] at moves
      cases moves
    · rw [declares_unique own other, isTestName_append] at plain
      cases plain
  · have moves : fs.isExternalTest file = true :=
      (externalTest_of_declares suffixed).mpr ⟨test, isTestName_append name⟩
    refine ⟨⟨fun _ => suffixed, fun _ => moves⟩, ⟨fun stays => ?_, fun other => ?_⟩⟩
    · rw [moves] at stays
      cases stays
    · rw [declares_unique other suffixed, isTestName_append] at plain
      cases plain

/-- A vote for one name alone is won by it, if there is a vote at all. -/
theorem winner_of_all {names : List String} (all : ∀ vote ∈ names, vote = name) :
    NameVote.winner? names = if names = [] then none else some name := by
  cases names with
  | nil => rfl
  | cons first rest =>
    rw [if_neg (List.cons_ne_nil _ _)]
    cases won : NameVote.winner? (first :: rest) with
    | none =>
      have ignored := winner_eq_none_iff.mp won first List.mem_cons_self
      rw [all first List.mem_cons_self, plain] at ignored
      cases ignored
    | some winner => rw [all winner (mem_of_winner won).1]

end Agreeing

/-! ## Names -/

section Naming

variable {p : Package} (step : InStep p) (plain : isTestName name = false)
  (agree : ∀ file ∈ p.files, Agrees fs name file)
include step plain agree

theorem mem_base_files :
    file ∈ (p.resolveWithTests fs).1.files ↔ file ∈ p.files ∧ Declares fs file name := by
  rw [(resolveWithTests_files p fs step).1, List.mem_filter, Bool.not_eq_true']
  exact and_congr_right fun listed => (externalTest_of_agrees plain (agree file listed)).2

theorem mem_tests_files : file ∈ (p.resolveWithTests fs).2.files ↔
    file ∈ p.files ∧ Declares fs file (name ++ testSuffix) := by
  rw [(resolveWithTests_files p fs step).2.2.1, List.mem_filter]
  exact and_congr_right fun listed => (externalTest_of_agrees plain (agree file listed)).1

/-- All files that stay vote for the name. -/
theorem base_name_of_agree (unnamed : p.name = "") : (p.resolveWithTests fs).1.name =
    if (p.resolveWithTests fs).1.files = [] then "" else name := by
  obtain ⟨clauses, gathered, called⟩ := base_name fs step
  rw [← (resolveWithTests_files p fs step).1] at gathered
  have declared (file : Path) (stays : file ∈ (p.resolveWithTests fs).1.files) :
      Declares fs file name :=
    ((mem_base_files step plain agree).mp stays).2
  have same : ∀ vote ∈ clauses.map (·.2), vote = name := by
    intro vote member
    obtain ⟨clause, listed, rfl⟩ := List.mem_map.mp member
    obtain ⟨stays, own⟩ := gathered.mem listed
    exact declares_unique own (declared _ stays)
  have votes : clauses.map (·.2) = [] ↔ (p.resolveWithTests fs).1.files = [] := by
    rw [List.map_eq_nil_iff]
    exact gathered.eq_nil_iff fun file stays => ⟨name, declared file stays⟩
  rw [called, if_pos unnamed, winner_of_all plain same]
  simp only [votes]
  split <;> rfl

end Naming

/-- Where all clauses agree on a name, a package with files has it, and its external tests have it with
the test suffix. Without files the package has no name, and its external tests are called by the suffix
alone. -/
theorem names_follow_clauses {p : Package} (step : InStep p) (unnamed : p.name = "")
    (plain : isTestName name = false) (agree : ∀ file ∈ p.files, Agrees fs name file) :
    let base := (p.resolveWithTests fs).1
    let tests := (p.resolveWithTests fs).2
    (∀ file, file ∈ base.files ↔ file ∈ p.files ∧ Declares fs file name) ∧
      (∀ file, file ∈ tests.files ↔ file ∈ p.files ∧ Declares fs file (name ++ testSuffix)) ∧
      (base.files ≠ [] → base.name = name ∧ tests.name = name ++ testSuffix) ∧
      (base.files = [] → base.name = "" ∧ tests.name = testSuffix) := by
  intro base tests
  have called : base.name = if base.files = [] then "" else name :=
    base_name_of_agree step plain agree unnamed
  have follows : tests.name = base.name ++ testSuffix := resolveWithTests_name p fs
  refine ⟨fun _ => mem_base_files step plain agree, fun _ => mem_tests_files step plain agree,
    fun files => ?_, fun empty => ?_⟩
  · rw [if_neg files] at called
    exact ⟨called, by rw [follows, called]⟩
  · rw [if_pos empty] at called
    exact ⟨called, by rw [follows, called, String.empty_append]⟩

/-- A directory with tests on both sides. -/
def testedDisk : Disk :=
  HollowPackages.diskOf [("/w/a.gno", "package a\n"), ("/w/a_test.gno", "package a\n"),
    ("/w/x_test.gno", "package a_test\n")]

/-- The package of that directory before it is resolved. -/
def testedPackage : Package :=
  (Package.new "a" .workspace).pushFiles [⟨"/w/a.gno"⟩, ⟨"/w/a_test.gno"⟩, ⟨"/w/x_test.gno"⟩]

/-- Tests inside the package change neither name. -/
theorem tested_names_follow_clauses :
    let base := (testedPackage.resolveWithTests testedDisk.fileSystem).1
    let tests := (testedPackage.resolveWithTests testedDisk.fileSystem).2
    (∀ file ∈ testedPackage.files, Agrees testedDisk.fileSystem "a" file) ∧
      base.files = [⟨"/w/a.gno"⟩, ⟨"/w/a_test.gno"⟩] ∧ base.name = "a" ∧
      tests.files = [⟨"/w/x_test.gno"⟩] ∧ tests.name = "a_test" := by
  intro base tests
  have agree : ∀ file ∈ testedPackage.files, Agrees testedDisk.fileSystem "a" file := by
    decide +kernel
  have listed : base.files = [⟨"/w/a.gno"⟩, ⟨"/w/a_test.gno"⟩] ∧ tests.files = [⟨"/w/x_test.gno"⟩] := by
    decide +kernel
  obtain ⟨-, -, named, -⟩ :=
    names_follow_clauses (p := testedPackage) rfl rfl (by decide) agree
  obtain ⟨own, theirs⟩ := named (by rw [listed.1]; exact List.cons_ne_nil _ _)
  exact ⟨agree, listed.1, own, listed.2, theirs⟩

/-- External tests alone do not get the name that they declare. -/
theorem lone_tests_lose_name :
    let fs := (HollowPackages.diskOf [("/w/x_test.gno", "package a_test\n")]).fileSystem
    let p := (Package.new "a" .workspace).pushFiles [⟨"/w/x_test.gno"⟩]
    let tests := (p.resolveWithTests fs).2
    InStep p ∧ p.name = "" ∧ isTestName "a" = false ∧ (∀ file ∈ p.files, Agrees fs "a" file) ∧
      tests.files ≠ [] ∧ tests.name = "_test" ∧ tests.name ≠ "a" ++ testSuffix :=
  ⟨rfl, rfl, by decide, by decide +kernel⟩

end PackageLoader.ConsistentClauses
