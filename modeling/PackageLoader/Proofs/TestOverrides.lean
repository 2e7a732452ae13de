import Mathlib.Data.List.Induction
import Mathlib.Data.List.Nodup
import PackageLoader.Proofs.HollowPackages

/-! Files for tests over a library package. Each of them is looked for in a list that those before it
have changed and made longer. As names never come twice in that list, it makes no difference: in the end
every file of the package stands where it stood, or the file for tests with its name does, and the files
for tests whose names are new stand behind them in their own order. -/
namespace PackageLoader.TestOverrides
open HollowPackages Separation

/-! ## Merging -/

/-- No two files have the same name. -/
def NamesApart (files : List Path) : Prop :=
  (files.map (·.fileName?)).Nodup

instance (files : List Path) : Decidable (NamesApart files) :=
  inferInstanceAs (Decidable (List.Nodup _))

/-- The file that stands where a file stood: the one for tests with its name, if there is one. -/
def standIn (tests : List Path) (file : Path) : Path :=
  (tests.find? (·.fileName? = file.fileName?)).getD file

/-- The files for tests whose names are new. -/
def joining (files tests : List Path) : List Path :=
  tests.filter fun test => !files.any (·.fileName? = test.fileName?)

/-- All files once those for tests are added, said without adding them one by one. -/
def merged (files tests : List Path) : List Path :=
  files.map (standIn tests) ++ joining files tests

section Merging

variable {files tests : List Path} {test file : Path}

@[simp] theorem standIn_fileName? (tests : List Path) (file : Path) :
    (standIn tests file).fileName? = file.fileName? := by
  unfold standIn
  cases found : tests.find? (·.fileName? = file.fileName?) with
  | none => rfl
  | some test => simpa using List.find?_some found

/-- A file for tests behind all others stands in for the files with its name. -/
theorem standIn_concat (new : ∀ other ∈ tests, other.fileName? ≠ test.fileName?) (file : Path) :
    standIn (tests ++ [test]) file =
      if test.fileName? = file.fileName? then test else standIn tests file := by
  unfold standIn
  rw [List.find?_append]
  split
  · rename_i same
    have none : tests.find? (·.fileName? = file.fileName?) = none := by
      rw [List.find?_eq_none]
      intro other member
      simpa [← same] using new other member
    simp [none, same]
  · rename_i different
    simp [different]

theorem standIn_of_mem (apart : NamesApart tests) (member : test ∈ tests)
    (same : test.fileName? = file.fileName?) : standIn tests file = test := by
  unfold standIn
  cases found : tests.find? (·.fileName? = file.fileName?) with
  | none => exact absurd same (by simpa using List.find?_eq_none.mp found test member)
  | some other =>
    have named : other.fileName? = file.fileName? := by simpa using List.find?_some found
    exact List.inj_on_of_nodup_map apart (List.mem_of_find?_eq_some found) member
      (named.trans same.symm)

theorem standIn_of_new (new : ∀ test ∈ tests, test.fileName? ≠ file.fileName?) :
    standIn tests file = file := by
  have none : tests.find? (·.fileName? = file.fileName?) = none := by
    simpa [List.find?_eq_none] using new
  rw [standIn, none]
  rfl

theorem mem_joining : test ∈ joining files tests ↔
    test ∈ tests ∧ ∀ file ∈ files, file.fileName? ≠ test.fileName? := by
  simp [joining]

theorem merged_nil (files : List Path) : merged files [] = files := by
  have kept : files.map (standIn []) = files := List.map_id' files
  rw [merged, kept]
  exact List.append_nil files

/-- Merging keeps the names of the files and puts new ones behind them. -/
theorem merged_names (files tests : List Path) : (merged files tests).map (·.fileName?) =
    files.map (·.fileName?) ++ (joining files tests).map (·.fileName?) := by
  simp [merged, Function.comp_def]

theorem merged_apart (known : NamesApart files) (apart : NamesApart tests) :
    NamesApart (merged files tests) := by
  rw [NamesApart, merged_names]
  refine List.nodup_append.mpr ⟨known, apart.sublist (List.filter_sublist.map _), ?_⟩
  intro name old other new same
  obtain ⟨file, member, rfl⟩ := List.mem_map.mp old
  obtain ⟨test, joins, rfl⟩ := List.mem_map.mp new
  exact (mem_joining.mp joins).2 file member same

/-- A file for tests whose name is nowhere goes behind all others. -/
theorem merged_concat_new (new : ∀ other ∈ tests, other.fileName? ≠ test.fileName?)
    (unknown : ∀ file ∈ files, file.fileName? ≠ test.fileName?) :
    merged files (tests ++ [test]) = merged files tests ++ [test] := by
  have kept : files.map (standIn (tests ++ [test])) = files.map (standIn tests) := by
    refine List.map_congr_left fun file member => ?_
    rw [standIn_concat new, if_neg fun same => unknown file member same.symm]
  have joins : joining files (tests ++ [test]) = joining files tests ++ [test] := by
    simpa [joining] using unknown
  rw [merged, kept, joins, merged, List.append_assoc]

/-- A file for tests with a name of the package goes where that name stands. -/
theorem merged_concat_known (known : NamesApart files)
    (new : ∀ other ∈ tests, other.fileName? ≠ test.fileName?) {i : Nat} {file : Path}
    (at_i : files[i]? = some file) (same : file.fileName? = test.fileName?) :
    merged files (tests ++ [test]) = (merged files tests).set i test := by
  obtain ⟨inside, rfl⟩ := List.getElem?_eq_some_iff.mp at_i
  have joins : joining files (tests ++ [test]) = joining files tests := by
    have held : files.any (·.fileName? = test.fileName?) = true :=
      List.any_eq_true.mpr ⟨_, List.getElem_mem inside, by simpa using same⟩
    simp [joining, held]
  have replaced : files.map (standIn (tests ++ [test])) = (files.map (standIn tests)).set i test := by
    refine List.ext_getElem (by simp) fun j below _ => ?_
    rw [List.length_map] at below
    rw [List.getElem_map, standIn_concat new, List.getElem_set, List.getElem_map]
    -- Names come once, so the name stands at no other place.
    have place : test.fileName? = files[j].fileName? ↔ i = j := by
      rw [← same]
      have all : (files.map Path.fileName?).length = files.length := List.length_map ..
      have names : (files.map Path.fileName?)[i] = (files.map Path.fileName?)[j] ↔ i = j :=
        known.getElem_inj_iff
      simpa using names
    simp only [place]
  rw [merged, joins, replaced, merged, List.set_append_left _ _ (by simpa using inside)]

end Merging

/-! ## Adding files for tests -/

/-- The package with the given files in both lists. -/
def withFiles (p : Package) (files : List Path) : Package :=
  { p with files := files, compiledFiles := files }

section Adding

variable {p : Package} {files tests : List Path} {test : Path}

theorem withFiles_self (step : InStep p) : withFiles p p.files = p := by
  cases p
  cases step
  rfl

/-- One more file for tests. -/
theorem addTestFile_merged (known : NamesApart files)
    (new : ∀ other ∈ tests, other.fileName? ≠ test.fileName?) :
    (withFiles p (merged files tests)).addTestFile test =
      withFiles p (merged files (tests ++ [test])) := by
  have listed : (withFiles p (merged files tests)).files = merged files tests := rfl
  unfold Package.addTestFile
  rw [listed]
  split
  · rename_i i found
    obtain ⟨inside, named, -⟩ := List.findIdx?_eq_some_iff_getElem.mp found
    have same : ((merged files tests).map (·.fileName?))[i]? = some test.fileName? := by
      rw [List.getElem?_map, List.getElem?_eq_getElem inside]
      simpa using named
    rw [merged_names, List.getElem?_append] at same
    split at same
    · rw [List.getElem?_map, Option.map_eq_some_iff] at same
      obtain ⟨file, at_i, same⟩ := same
      rw [merged_concat_known known new at_i same]
      rfl
    · -- What joined the files before has other names.
      obtain ⟨other, joined, same⟩ := List.mem_map.mp (List.mem_of_getElem? same)
      exact absurd same (new other (mem_joining.mp joined).1)
  · rename_i nowhere
    have unknown : ∀ file ∈ files, file.fileName? ≠ test.fileName? := by
      intro file member
      have stands : standIn tests file ∈ merged files tests :=
        List.mem_append_left _ (List.mem_map_of_mem member)
      simpa using List.findIdx?_eq_none_iff.mp nowhere _ stands
    rw [merged_concat_new new unknown]
    rfl

/-- All files for tests, one after the other. -/
theorem foldl_addTestFile_merged (step : InStep p) (known : NamesApart p.files)
    (apart : NamesApart tests) :
    tests.foldl Package.addTestFile p = withFiles p (merged p.files tests) := by
  induction tests using List.reverseRecOn with
  | nil =>
    rw [List.foldl_nil, merged_nil, withFiles_self step]
  | append_singleton tests test ih =>
    rw [NamesApart, List.map_append, List.nodup_append] at apart
    obtain ⟨before, -, other⟩ := apart
    have new : ∀ earlier ∈ tests, earlier.fileName? ≠ test.fileName? := by
      intro earlier member
      exact other _ (List.mem_map_of_mem member) _ (by simp)
    rw [List.foldl_append, ih before]
    exact addTestFile_merged known new

end Adding

/-- What a list of files is once files for tests are put over it: a file with the name of one for tests
is replaced where it stands, other files stay where they are, and the remaining files for tests follow in
their order. -/
structure Overridden (files tests after : List Path) : Prop where
  replaced : ∀ (i : Nat) (file test : Path), files[i]? = some file → test ∈ tests →
    test.fileName? = file.fileName? → after[i]? = some test
  kept : ∀ (i : Nat) (file : Path), files[i]? = some file →
    (∀ test ∈ tests, test.fileName? ≠ file.fileName?) → after[i]? = some file
  joined : after.drop files.length = joining files tests
  apart : NamesApart after

theorem overridden_merged {files tests : List Path} (known : NamesApart files)
    (apart : NamesApart tests) : Overridden files tests (merged files tests) := by
  have stands {i : Nat} {file : Path} (at_i : files[i]? = some file) :
      (merged files tests)[i]? = some (standIn tests file) := by
    obtain ⟨inside, rfl⟩ := List.getElem?_eq_some_iff.mp at_i
    rw [merged, List.getElem?_append_left (by simpa using inside), List.getElem?_map, at_i]
    rfl
  constructor
  case replaced =>
    intro i file test at_i member same
    rw [stands at_i, standIn_of_mem apart member same]
  case kept =>
    intro i file at_i new
    rw [stands at_i, standIn_of_new new]
  case joined => rw [merged, List.drop_left' (by simp)]
  case apart => exact merged_apart known apart

/-- Adding the files of a directory for tests to a package with two equal lists of files of different
names, where the files of the directory have different names as well. Both lists stay equal and become
the files with those for tests put over them, and nothing else changes. A directory that is none, or that
cannot be listed, changes nothing at all. -/
theorem addTestFiles_overrides {p : Package} (step : InStep p) (known : NamesApart p.files)
    (fs : FileSystem) (dir : Path)
    (apart : ∀ tests, fs.packageFiles dir = .ok tests → NamesApart tests) :
    (∀ tests, fs.isDir dir = true → fs.packageFiles dir = .ok tests →
      ∃ after, p.addTestFiles fs dir = { p with files := after, compiledFiles := after } ∧
        Overridden p.files tests after) ∧
    (fs.isDir dir = false ∨ (∃ cause, fs.packageFiles dir = .error cause) →
      p.addTestFiles fs dir = p) := by
  constructor
  · intro tests stands listed
    refine ⟨merged p.files tests, ?_, overridden_merged known (apart tests listed)⟩
    unfold Package.addTestFiles
    rw [if_pos stands, listed]
    exact foldl_addTestFile_merged step known (apart tests listed)
  · intro missing
    unfold Package.addTestFiles
    rcases missing with none | ⟨cause, unlistable⟩
    · rw [none, if_neg (by decide)]
    · rw [unlistable]
      split <;> rfl

/-- A directory for tests with a file of the library and another one. -/
def overridingDisk : Disk :=
  diskOf [("/lib/std/a.gno", "package std\n"), ("/lib/std/b.gno", "package std\n"),
    ("/tests/std/b.gno", "package std\n"), ("/tests/std/d.gno", "package std\n")]

/-- A file for tests that is not saved yet. -/
def unsavedTest : Overlay :=
  .ofList [(⟨"/tests/std/c.gno"⟩, [])]

def overriddenPackage : Package :=
  (Package.new "std" .library).pushFiles [⟨"/lib/std/a.gno"⟩, ⟨"/lib/std/b.gno"⟩]

/-- One file is replaced, and two join the others. -/
theorem overriddenPackage_overrides :
    let fs := unsavedTest.inFrontOf overridingDisk.fileSystem
    let tests : List Path := [⟨"/tests/std/b.gno"⟩, ⟨"/tests/std/c.gno"⟩, ⟨"/tests/std/d.gno"⟩]
    InStep overriddenPackage ∧ NamesApart overriddenPackage.files ∧ fs.isDir ⟨"/tests/std"⟩ = true ∧
      fs.packageFiles ⟨"/tests/std"⟩ = .ok tests ∧ NamesApart tests ∧
      ∃ after, overriddenPackage.addTestFiles fs ⟨"/tests/std"⟩ =
          { overriddenPackage with files := after, compiledFiles := after } ∧
        Overridden overriddenPackage.files tests after ∧
        after = ⟨"/lib/std/a.gno"⟩ :: tests := by
  intro fs tests
  have step : InStep overriddenPackage := rfl
  have known : NamesApart overriddenPackage.files := by decide
  have stands : fs.isDir ⟨"/tests/std"⟩ = true := by decide +kernel
  have listed : fs.packageFiles ⟨"/tests/std"⟩ = .ok tests := by decide +kernel
  have apart : NamesApart tests := by decide
  have all : ∀ listed', fs.packageFiles ⟨"/tests/std"⟩ = .ok listed' → NamesApart listed' := by
    intro listed' same
    cases listed.symm.trans same
    exact apart
  obtain ⟨after, added, overridden⟩ :=
    (addTestFiles_overrides step known fs ⟨"/tests/std"⟩ all).1 tests stands listed
  refine ⟨step, known, stands, listed, apart, after, added, overridden, ?_⟩
  have files := congrArg Package.files added
  have ran : (overriddenPackage.addTestFiles fs ⟨"/tests/std"⟩).files =
      ⟨"/lib/std/a.gno"⟩ :: tests := by decide +kernel
  exact files.symm.trans ran

end PackageLoader.TestOverrides
