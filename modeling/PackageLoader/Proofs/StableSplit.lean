import PackageLoader.Proofs.HollowPackages

/-! Taking out external tests in place. An index goes over the compiled files, and a file that moves is
removed at the index from both lists, which fails where one of them ends in front of it. The files in
front of the index are those that stay, so none is passed over behind a removal. The loop comes to the
partition of the files unless it fails, and it fails only for an external test that stands behind the
end of the other list. -/
namespace PackageLoader.StableSplit
open Package (removeFile? splitFrom splitInPlace)
open Separation

/-! ## One turn -/

/-- A package in the loop: the files in front of the index stay, those behind it are still to come. -/
def underway (p : Package) (front kept behind rest : List Path) : Package :=
  { p with files := front ++ behind, compiledFiles := kept ++ rest }

section Turns

variable (moves : Path → Bool) (p tests : Package) (front kept behind rest : List Path)

theorem splitFrom_end :
    splitFrom moves kept.length (underway p front kept behind []) tests =
      some (underway p front kept behind [], tests) := by
  have ended : (underway p front kept behind []).compiledFiles[kept.length]? = none := by
    simp [underway]
  rw [splitFrom]
  split
  · rfl
  · rename_i there
    cases ended.symm.trans there

/-- A turn looks at the first file that is still to come. -/
theorem splitFrom_turn (file : Path) :
    splitFrom moves kept.length (underway p front kept behind (file :: rest)) tests =
      if moves file then
        (removeFile? (underway p front kept behind (file :: rest)) kept.length).bind fun removed =>
          splitFrom moves kept.length removed.2 (tests.pushFile removed.1)
      else splitFrom moves (kept.length + 1) (underway p front kept behind (file :: rest)) tests := by
  have first : (underway p front kept behind (file :: rest)).compiledFiles[kept.length]? =
      some file := by
    simp [underway]
  rw [splitFrom]
  split
  · rename_i ended
    cases ended.symm.trans first
  · rename_i there
    cases there.symm.trans first
    congr 1
    split <;> rename_i removed <;> rw [removed] <;> rfl

variable {moves kept front} {file : Path}

/-- Files may be counted as files in front of the index or behind it. -/
theorem underway_append (passed ahead : List Path) :
    underway p (front ++ passed) (kept ++ ahead) behind rest =
      underway p front kept (passed ++ behind) (ahead ++ rest) := by
  rw [underway, underway, List.append_assoc, List.append_assoc]

/-- A file that stays joins those in front of the index. -/
theorem splitFrom_stays (stays : moves file = false) :
    splitFrom moves kept.length (underway p front kept behind (file :: rest)) tests =
      splitFrom moves (kept ++ [file]).length
        (underway p (front ++ behind.head?.toList) (kept ++ [file]) behind.tail rest) tests := by
  have whole : behind.head?.toList ++ behind.tail = behind := by cases behind <;> rfl
  rw [underway_append, whole, splitFrom_turn, stays, if_neg Bool.false_ne_true, List.length_append]
  rfl

/-- A file that moves is taken out of both lists, if the other one goes on as well. -/
theorem splitFrom_moves (moved : moves file = true) (level : front.length = kept.length)
    (other : Path) :
    splitFrom moves kept.length (underway p front kept (other :: behind) (file :: rest)) tests =
      splitFrom moves kept.length (underway p front kept behind rest) (tests.pushFile file) := by
  have removed : removeFile? (underway p front kept (other :: behind) (file :: rest)) kept.length =
      some (file, underway p front kept behind rest) := by
    simp [removeFile?, underway, ← level, List.eraseIdx_append_of_length_le]
  rw [splitFrom_turn, if_pos moved, removed]
  rfl

/-- Behind the end of the other list no file can be taken out. -/
theorem splitFrom_fails (moved : moves file = true) (short : front.length ≤ kept.length) :
    splitFrom moves kept.length (underway p front kept [] (file :: rest)) tests = none := by
  have removed : removeFile? (underway p front kept [] (file :: rest)) kept.length = none := by
    simp [removeFile?, underway, short]
  rw [splitFrom_turn, if_pos moved, removed]
  rfl

end Turns

/-! ## All turns -/

/-- The files ahead are parted as they come, unless one that moves stands behind the end of the other
list. The index is at the same place in both lists until that one ends. -/
theorem splitFrom_ahead {moves : Path → Bool} (p tests : Package) {front kept : List Path}
    (behind rest : List Path)
    (level : front.length = kept.length ∨ behind = [] ∧ front.length ≤ kept.length) :
    splitFrom moves kept.length (underway p front kept behind rest) tests =
      if (rest.drop behind.length).any moves then none
      else some (underway p front kept (Package.splitFiles moves behind rest).files
          (Package.splitFiles moves behind rest).compiledFiles,
        tests.pushFiles (Package.splitFiles moves behind rest).moved) := by
  induction rest generalizing tests front kept behind with
  | nil => simp [splitFrom_end, Package.splitFiles, Package.pushFiles]
  | cons file rest ih =>
    cases moved : moves file with
    | false =>
      have passed : ((file :: rest).drop behind.length).any moves =
          (rest.drop behind.tail.length).any moves := by
        cases behind with
        | nil => simp [moved]
        | cons => rfl
      have next : (front ++ behind.head?.toList).length = (kept ++ [file]).length ∨
          behind.tail = [] ∧ (front ++ behind.head?.toList).length ≤ (kept ++ [file]).length := by
        cases behind with
        | nil =>
          simp only [List.head?_nil, Option.toList_none, List.append_nil, List.length_append,
            List.length_singleton]
          exact .inr ⟨rfl, by omega⟩
        | cons other behind => exact .inl (by simpa using level)
      rw [splitFrom_stays p tests behind rest moved, passed, ih tests behind.tail next]
      simp only [Package.splitFiles, moved, Bool.false_eq_true, if_false, underway_append]
      rfl
    | true =>
      cases behind with
      | nil =>
        rw [splitFrom_fails p tests rest moved (by simpa using level.elim Nat.le_of_eq (·.2))]
        simp [moved]
      | cons other behind =>
        have even : front.length = kept.length := by simpa using level
        rw [splitFrom_moves p tests behind rest moved even, ih _ _ (.inl even)]
        simp only [Package.splitFiles, moved, if_true]
        rfl

/-- The loop comes to the parted files, or fails for an external test behind the end of the other
list. -/
theorem splitInPlace_eq (p : Package) (fs : FileSystem) : splitInPlace p fs =
    if (p.compiledFiles.drop p.files.length).any fs.isExternalTest then none
    else some (p.splitTests fs) :=
  @splitFrom_ahead fs.isExternalTest p p.externalTest [] [] p.files p.compiledFiles (.inl rfl)

example : splitFrom (fun _ => true) 0
    { Package.new "a" .workspace with files := [⟨"a"⟩], compiledFiles := [⟨"a"⟩, ⟨"b"⟩] }
    (.new "a_test" .externalTest) = none := by decide +kernel

/-- If the compiled files are the first files of a package, the loop that moves its external tests never
asks for a file that is not there. It leaves the other files in both lists in order, keeps the files
behind the compiled ones, gives the external tests in order to both lists of the test package and
changes nothing else. -/
theorem splitting_partitions (p : Package) (fs : FileSystem) (extra : List Path)
    (starts : p.files = p.compiledFiles ++ extra) :
    splitInPlace p fs = some (p.splitTests fs) ∧
      p.splitTests fs =
        ({ p with
            files := p.compiledFiles.filter (!fs.isExternalTest ·) ++ extra
            compiledFiles := p.compiledFiles.filter (!fs.isExternalTest ·) },
          { p.externalTest with
            files := p.compiledFiles.filter fs.isExternalTest
            compiledFiles := p.compiledFiles.filter fs.isExternalTest }) := by
  have nothing : p.compiledFiles.drop p.files.length = [] := by
    rw [starts, List.drop_eq_nil_iff, List.length_append]
    exact Nat.le_add_right _ _
  constructor
  · rw [splitInPlace_eq, nothing]
    rfl
  · rw [Package.splitTests, starts, splitFiles_append, pushFiles_eq]
    rfl

/-- Two external tests next to each other, in front of a test that stays. -/
def neighbours : Disk :=
  HollowPackages.diskOf [("/w/a.gno", "package a\n"), ("/w/x_test.gno", "package a_test\n"),
    ("/w/y_test.gno", "package a_test\n"), ("/w/z_test.gno", "package a\n")]

/-- Their package, with a file at the end that is not compiled. -/
def neighbouring : Package :=
  { Package.new "a" .workspace with
    files := [⟨"/w/a.gno"⟩, ⟨"/w/x_test.gno"⟩, ⟨"/w/y_test.gno"⟩, ⟨"/w/z_test.gno"⟩, ⟨"/w/a.s"⟩]
    compiledFiles := [⟨"/w/a.gno"⟩, ⟨"/w/x_test.gno"⟩, ⟨"/w/y_test.gno"⟩, ⟨"/w/z_test.gno"⟩] }

/-- The second of the two is not passed over. -/
theorem neighbouring_partitions :
    neighbouring.files = neighbouring.compiledFiles ++ [⟨"/w/a.s"⟩] ∧
      splitInPlace neighbouring neighbours.fileSystem =
        some ({ neighbouring with
            files := [⟨"/w/a.gno"⟩, ⟨"/w/z_test.gno"⟩, ⟨"/w/a.s"⟩]
            compiledFiles := [⟨"/w/a.gno"⟩, ⟨"/w/z_test.gno"⟩] },
          { neighbouring.externalTest with
            files := [⟨"/w/x_test.gno"⟩, ⟨"/w/y_test.gno"⟩]
            compiledFiles := [⟨"/w/x_test.gno"⟩, ⟨"/w/y_test.gno"⟩] }) := by
  have starts : neighbouring.files = neighbouring.compiledFiles ++ [⟨"/w/a.s"⟩] := rfl
  have moved : neighbouring.compiledFiles.filter neighbours.fileSystem.isExternalTest =
      [⟨"/w/x_test.gno"⟩, ⟨"/w/y_test.gno"⟩] := by decide +kernel
  have kept : neighbouring.compiledFiles.filter (!neighbours.fileSystem.isExternalTest ·) =
      [⟨"/w/a.gno"⟩, ⟨"/w/z_test.gno"⟩] := by decide +kernel
  obtain ⟨done, parted⟩ := splitting_partitions neighbouring neighbours.fileSystem _ starts
  refine ⟨starts, done.trans (congrArg some (parted.trans ?_))⟩
  rw [moved, kept]
  rfl

end PackageLoader.StableSplit
