import PackageLoader.Package.Link
import PackageLoader.Proofs.TableLaws

/-! Linking points an import at the last package with its path that is no external test, and changes
nothing but imports. Where no two such packages share a path, that is the only one. -/
namespace PackageLoader.Linking
open TableLaws

/-- Linking changes the imports of a package and nothing else. -/
theorem link_keeps (targets : Table String PackageId) (p : Package) :
    p.link targets = { p with imports := (p.link targets).imports } := by
  unfold Package.link
  split <;> rfl

@[simp] theorem link_id (targets : Table String PackageId) (p : Package) :
    (p.link targets).id = p.id := by rw [link_keeps]

@[simp] theorem link_name (targets : Table String PackageId) (p : Package) :
    (p.link targets).name = p.name := by rw [link_keeps]

@[simp] theorem link_path (targets : Table String PackageId) (p : Package) :
    (p.link targets).path = p.path := by rw [link_keeps]

@[simp] theorem link_origin (targets : Table String PackageId) (p : Package) :
    (p.link targets).origin = p.origin := by rw [link_keeps]

@[simp] theorem link_module? (targets : Table String PackageId) (p : Package) :
    (p.link targets).module? = p.module? := by rw [link_keeps]

@[simp] theorem link_errors (targets : Table String PackageId) (p : Package) :
    (p.link targets).errors = p.errors := by rw [link_keeps]

@[simp] theorem link_files (targets : Table String PackageId) (p : Package) :
    (p.link targets).files = p.files := by rw [link_keeps]

@[simp] theorem link_compiledFiles (targets : Table String PackageId) (p : Package) :
    (p.link targets).compiledFiles = p.compiledFiles := by rw [link_keeps]

@[simp] theorem link_isExternalTest (targets : Table String PackageId) (p : Package) :
    (p.link targets).isExternalTest = p.isExternalTest := by
  simp [Package.isExternalTest]

/-- Imports of packages other than the builtin one are looked up among the targets. -/
theorem link_imports (targets : Table String PackageId) {p : Package} (other : p.origin ≠ .builtin)
    (path : String) : (p.link targets).imports.get? path =
      (p.imports.get? path).bind fun _ => (targets.get? path).map some := by
  rw [Package.link, if_neg other]
  exact get?_revise _ _ _

theorem importTargets_concat (packages : List Package) (p : Package) :
    importTargets (packages ++ [p]) = if p.isExternalTest then importTargets packages
      else (importTargets packages).insert p.path packages.length := by
  unfold importTargets
  cases separate : p.isExternalTest <;>
    simp [List.zipIdx_append, separate, Table.ofList, Table.insertAll]

/-- What a package can be found by: its path, unless it is an external test. -/
def claim (p : Package) : String × Bool :=
  (p.path, p.isExternalTest)

/-- Only paths and who is an external test matter to where imports lead. -/
theorem importTargets_congr {packages others : List Package}
    (same : packages.map claim = others.map claim) :
    importTargets packages = importTargets others := by
  induction packages using List.reverseRecOn generalizing others with
  | nil =>
    obtain rfl : others = [] := List.map_eq_nil_iff.mp same.symm
    rfl
  | append_singleton packages p ih =>
    cases others using List.reverseRecOn with
    | nil => simp at same
    | append_singleton front q =>
      simp only [List.map_append, List.map_cons, List.map_nil] at same
      obtain ⟨fronts, lasts⟩ := List.append_inj' same rfl
      have length : packages.length = front.length := by simpa using congrArg List.length fronts
      simp only [claim, List.cons.injEq, Prod.mk.injEq, and_true] at lasts
      rw [importTargets_concat, importTargets_concat, ih fronts, lasts.1, lasts.2, length]

theorem getElem?_concat_iff {packages : List Package} {last p : Package} {i : Nat} :
    (packages ++ [last])[i]? = some p ↔
      packages[i]? = some p ∨ i = packages.length ∧ p = last := by
  rcases Nat.lt_trichotomy i packages.length with less | rfl | greater
  · simp [List.getElem?_append_left less, Nat.ne_of_lt less]
  · simp [eq_comm]
  · have beyond : (packages ++ [last])[i]? = none := List.getElem?_eq_none (by simp; omega)
    simp [beyond, List.getElem?_eq_none (Nat.le_of_lt greater), Nat.ne_of_gt greater]

/-- The target of a path is the last package that has it and is no external test. -/
theorem importTargets_get?_iff {packages : List Package} {path : String} {i : Nat} :
    (importTargets packages).get? path = some i ↔
      (∃ p, packages[i]? = some p ∧ p.isExternalTest = false ∧ p.path = path) ∧
        ∀ (j : Nat) q, packages[j]? = some q → q.isExternalTest = false → q.path = path → j ≤ i := by
  induction packages using List.reverseRecOn generalizing i with
  | nil => simp [importTargets, Table.ofList, Table.insertAll]
  | append_singleton packages last ih =>
    have inside {j : Nat} {q : Package} (at_j : packages[j]? = some q) : j < packages.length :=
      (List.getElem?_eq_some_iff.mp at_j).1
    rw [importTargets_concat]
    simp only [getElem?_concat_iff]
    cases separate : last.isExternalTest with
    | true =>
      simp only [↓reduceIte, ih]
      grind
    | false =>
      simp only [Bool.false_eq_true, ↓reduceIte, get?_insert, Std.compare_eq_iff_eq]
      by_cases same : path = last.path
      · simp only [same, ↓reduceIte, Option.some.injEq]
        grind
      · simp only [same, ↓reduceIte, ih]
        grind

/-- No two packages share a path, external tests aside. -/
def PathsDiffer (packages : List Package) : Prop :=
  packages.Pairwise fun p q =>
    p.isExternalTest = false → q.isExternalTest = false → p.path ≠ q.path

theorem position_unique {packages : List Package} {i j : Nat} {p q : Package}
    (differ : PathsDiffer packages) (first : packages[i]? = some p) (second : packages[j]? = some q)
    (plain : p.isExternalTest = false) (other : q.isExternalTest = false) (same : p.path = q.path) :
    i = j := by
  obtain ⟨insideI, rfl⟩ := List.getElem?_eq_some_iff.mp first
  obtain ⟨insideJ, rfl⟩ := List.getElem?_eq_some_iff.mp second
  have apart := List.pairwise_iff_getElem.mp differ
  rcases Nat.lt_trichotomy i j with less | equal | greater
  · exact absurd same (apart i j insideI insideJ less plain other)
  · exact equal
  · exact absurd same.symm (apart j i insideJ insideI greater other plain)

/-- Where paths differ, the target of a path is wherever it stands. -/
theorem importTargets_unique {packages : List Package} (differ : PathsDiffer packages) {path : String}
    {i : Nat} : (importTargets packages).get? path = some i ↔
      ∃ p, packages[i]? = some p ∧ p.isExternalTest = false ∧ p.path = path := by
  rw [importTargets_get?_iff]
  refine ⟨And.left, fun stands => ⟨stands, fun j q at_j plain same => ?_⟩⟩
  obtain ⟨p, at_i, other, path⟩ := stands
  exact Nat.le_of_eq (position_unique differ at_j at_i plain other (same.trans path.symm))

theorem linkPackages_getElem? {packages : List Package} {i : Nat} {q : Package} :
    (linkPackages packages)[i]? = some q ↔
      ∃ p, packages[i]? = some p ∧ p.link (importTargets packages) = q := by
  rw [linkPackages, List.getElem?_map, Option.map_eq_some_iff]

/-- Linking leads imports to where they lead already. -/
theorem importTargets_linkPackages (packages : List Package) :
    importTargets (linkPackages packages) = importTargets packages := by
  apply importTargets_congr
  rw [linkPackages, List.map_map]
  apply List.map_congr_left
  intro p _
  simp [claim]

theorem linkPackages_pathsDiffer {packages : List Package} (differ : PathsDiffer packages) :
    PathsDiffer (linkPackages packages) := by
  apply List.pairwise_map.mpr
  apply differ.imp
  intro p q apart
  simpa using apart

/-- A path has a target exactly if it is the path of some linked package that is no external test. -/
theorem exists_target_iff {packages : List Package} (differ : PathsDiffer packages) {path : String} :
    (∃ i, (importTargets packages).get? path = some i) ↔
      ∃ q ∈ linkPackages packages, q.isExternalTest = false ∧ q.path = path := by
  simp only [importTargets_unique differ]
  constructor
  · rintro ⟨i, q, at_i, plain, same⟩
    exact ⟨_, List.mem_map_of_mem (List.mem_of_getElem? at_i), by simpa using plain,
      by simpa using same⟩
  · rintro ⟨_, linked, plain, same⟩
    obtain ⟨q, present, rfl⟩ := List.mem_map.mp linked
    obtain ⟨i, at_i⟩ := List.mem_iff_getElem?.mp present
    exact ⟨i, q, at_i, by simpa using plain, by simpa using same⟩

end PackageLoader.Linking
