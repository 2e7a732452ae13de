import Mathlib.Data.List.Forall2
import PackageLoader.Proofs.GraphRuns
import PackageLoader.Proofs.PatternRuns

/-! Linking any list of packages leaves each as it is but for its imports, of which it keeps those that
some package provides. It closes the list: linking again changes nothing. Linking finds the last
package with a path and a graph the first; where the packages are those of a graph that calls have
led to, both find the same. -/
namespace PackageLoader.LinkClosure
open FirstDiscovery GraphRuns Linking Offers PatternRuns TableLaws

/-! ## Any list -/

/-- The last package of a list that has a path and is no external test stands at the position. -/
def LastWith (packages : List Package) (path : String) (i : Nat) : Prop :=
  (∃ p, packages[i]? = some p ∧ p.isExternalTest = false ∧ p.path = path) ∧
    ∀ (j : Nat) q, packages[j]? = some q → q.isExternalTest = false → q.path = path → j ≤ i

/-- What linking makes of a package of a list. -/
structure LinkedAmong (packages : List Package) (p q : Package) : Prop where
  rest : q = { p with imports := q.imports }
  builtin : p.origin = .builtin → q = p
  keys : p.origin ≠ .builtin → ∀ path, path ∈ q.imports.keys ↔
    path ∈ p.imports.keys ∧ ∃ r ∈ packages, r.isExternalTest = false ∧ r.path = path
  targets : p.origin ≠ .builtin → ∀ path target?, q.imports.get? path = some target? →
    ∃ i, target? = some i ∧ LastWith packages path i

section Lists

variable {packages : List Package} {path : String}

/-- A path has a target exactly if some package provides it. -/
theorem exists_importTarget_iff : (∃ i, (importTargets packages).get? path = some i) ↔
    ∃ r ∈ packages, r.isExternalTest = false ∧ r.path = path := by
  induction packages using List.reverseRecOn with
  | nil => simp [importTargets, Table.ofList, Table.insertAll]
  | append_singleton packages last ih =>
    rw [importTargets_concat]
    cases separate : last.isExternalTest with
    | true =>
      rw [if_pos rfl, ih]
      simp [or_and_right, exists_or, separate]
    | false =>
      simp only [Bool.false_eq_true, ↓reduceIte, get?_insert, Std.compare_eq_iff_eq]
      by_cases same : path = last.path
      · simp [same, separate]
      · simp [same, ih, or_and_right, exists_or, Ne.symm same]

theorem link_linkedAmong (packages : List Package) (p : Package) :
    LinkedAmong packages p (p.link (importTargets packages)) where
  rest := link_keeps _ p
  builtin builtin := if_pos builtin
  keys other path := by
    rw [mem_keys_iff, mem_keys_iff, ← exists_importTarget_iff]
    simp only [link_imports _ other, Option.bind_eq_some_iff, Option.map_eq_some_iff]
    constructor
    · rintro ⟨_, old, had, i, target, -⟩
      exact ⟨⟨old, had⟩, i, target⟩
    · rintro ⟨⟨old, had⟩, i, target⟩
      exact ⟨some i, old, had, i, target, rfl⟩
  targets other path target? found := by
    rw [link_imports _ other, Option.bind_eq_some_iff] at found
    obtain ⟨_, -, looked⟩ := found
    obtain ⟨i, target, rfl⟩ := Option.map_eq_some_iff.mp looked
    exact ⟨i, rfl, importTargets_get?_iff.mp target⟩

/-- Imports that lead to targets lead to them. -/
theorem link_link (targets : Table String PackageId) (p : Package) :
    (p.link targets).link targets = p.link targets := by
  by_cases builtin : p.origin = .builtin
  · simp only [Package.link, if_pos builtin]
  · have again : (p.imports.revise fun path _ => (targets.get? path).map some).revise
        (fun path _ => (targets.get? path).map some) =
        p.imports.revise fun path _ => (targets.get? path).map some := by
      apply Table.ext_entries
      simp only [Table.revise, List.filterMap_filterMap]
      apply List.filterMap_congr
      intro e _
      cases found : targets.get? e.1 <;> simp [found]
    simp only [Package.link, if_neg builtin, again]

theorem linkPackages_again (packages : List Package) :
    linkPackages (linkPackages packages) = linkPackages packages := by
  conv_lhs => rw [linkPackages, importTargets_linkPackages]
  rw [linkPackages, List.map_map]
  exact List.map_congr_left fun p _ => link_link _ p

end Lists

/-! ## Graphs -/

/-- What linking makes of a package of a graph: an import that is kept leads to where the graph finds
its path. -/
structure LinkedIn (g : PackageGraph) (p q : Package) : Prop where
  kept : p.origin ≠ .builtin → ∀ path ∈ p.imports.keys,
    (path ∈ q.imports.keys ↔ g.containsPath path = true)
  targets : p.origin ≠ .builtin → ∀ path target?, q.imports.get? path = some target? →
    target? = g.lookup path

section Graphs

variable {g : PackageGraph} {events : List Event}

/-- Linking looks paths up where the graph does. -/
theorem importTargets_eq_lookup (indexed : Indexed g) (path : String) :
    (importTargets g.packages).get? path = g.lookup path := by
  apply Option.ext
  intro i
  rw [importTargets_unique (indexed_pathsDiffer indexed), indexed path i]

theorem link_linkedIn (indexed : Indexed g) (p : Package) :
    LinkedIn g p (p.link (importTargets g.packages)) where
  kept other path had := by
    obtain ⟨old, before⟩ := mem_keys_iff.mp had
    rw [mem_keys_iff, link_imports _ other, before, importTargets_eq_lookup indexed,
      containsPath_eq, Option.isSome_iff_exists]
    simp
  targets other path target? found := by
    rw [link_imports _ other, importTargets_eq_lookup indexed, Option.bind_eq_some_iff] at found
    obtain ⟨_, -, looked⟩ := found
    obtain ⟨i, at_i, rfl⟩ := Option.map_eq_some_iff.mp looked
    exact at_i.symm

end Graphs

/-- Linking any list of packages keeps their order and everything about them but imports. Imports are
kept where some package provides their path and lead to the last one that does, whatever they led to
before, and linking again changes nothing. Where the packages are those of a graph that calls have led
to, imports lead to where the graph finds their paths. -/
theorem linkPackages_closes (packages : List Package) :
    List.Forall₂ (LinkedAmong packages) packages (linkPackages packages) ∧
    linkPackages (linkPackages packages) = linkPackages packages ∧
    ∀ events g, Run events g → g.packages = packages →
      List.Forall₂ (LinkedIn g) packages (linkPackages packages) := by
  refine ⟨?_, linkPackages_again packages, ?_⟩
  · exact List.forall₂_map_right_iff.mpr
      (List.forall₂_same.mpr fun p _ => link_linkedAmong packages p)
  · rintro events g run rfl
    exact List.forall₂_map_right_iff.mpr
      (List.forall₂_same.mpr fun p _ => link_linkedIn (run_records run).indexed p)

/-- A package that imports itself, an external test and something that nothing provides, each with
some target from before. -/
def importer : Package :=
  { Package.new "a" .workspace with
    imports := .ofList [("a", some 5), ("a_test", some 1), ("b", none)] }

def importerGraph : PackageGraph where
  packages := [importer, .new "a_test" .externalTest]
  byPath := .ofList [("a", 0)]

theorem importer_closes :
    Run [.insert importer (some 0), .insert (.new "a_test" .externalTest) (some 1)] importerGraph ∧
    List.Forall₂ (LinkedIn importerGraph) importerGraph.packages
      (linkPackages importerGraph.packages) ∧
    (linkPackages importerGraph.packages).map (·.imports.entries) = [[("a", some 0)], []] := by
  have run := (Run.start.insert importer).insert (.new "a_test" .externalTest)
  exact ⟨run, (linkPackages_closes importerGraph.packages).2.2 _ _ run rfl, by decide +kernel⟩

/-! ## Queries -/

/-- Some sequence of calls leads to the graph. -/
def Reachable (g : PackageGraph) : Prop :=
  ∃ events, Run events g

section Queries

variable {g : PackageGraph} {disk : Disk} {fs : FileSystem} {settings : Settings}

theorem reachable_insertFor (reachable : Reachable g) (answers : Bool) (p : Package) :
    Reachable (g.insertFor answers p) := by
  obtain ⟨events, run⟩ := reachable
  have inserted := run.insert p
  unfold PackageGraph.insertFor
  generalize g.insert p = result at inserted
  obtain ⟨later, answer⟩ := result
  cases answer with
  | none => exact ⟨_, inserted⟩
  | some id =>
    cases answers with
    | false => exact ⟨_, inserted⟩
    | true => exact ⟨_, inserted.addRoot id (by simp [Event.given?])⟩

theorem reachable_consider (reachable : Reachable g) (c : Candidate) : Reachable (consider g c) := by
  unfold consider
  split
  · exact reachable
  · exact List.foldlRecOn c.packages _ reachable fun g reached p _ =>
      reachable_insertFor reached c.asked p

theorem reachable_considered (reachable : Reachable g) (cs : List Candidate) :
    Reachable (cs.foldl consider g) :=
  List.foldlRecOn cs _ reachable fun _ reached c _ => reachable_consider reached c

theorem reachable_addBuiltin (reachable : Reachable g) (dir : Path) : Reachable (g.addBuiltin dir) := by
  obtain ⟨events, run⟩ := reachable
  have inserted := run.insert (builtinPackage dir)
  unfold PackageGraph.addBuiltin
  generalize g.insert (builtinPackage dir) = result at inserted
  obtain ⟨later, answer⟩ := result
  cases answer with
  | some id => exact ⟨_, inserted.addRoot id (by simp [Event.given?])⟩
  | none =>
    have looked := inserted.lookup builtinPath
    simp only
    cases found : later.lookup builtinPath with
    | none => exact ⟨_, inserted⟩
    | some id =>
      rw [found] at looked
      exact ⟨_, looked.addRoot id (by simp [Event.given?])⟩

/-- The graph that a query links is one that calls have led to. -/
theorem discover_reachable {overlay : Overlay} {patterns : List String}
    (ran : discover disk settings overlay patterns = .ok g) : Reachable g := by
  rw [discover_eq, settle_eq_ok_iff] at ran
  obtain ⟨-, rfl⟩ := ran
  have consults {g : PackageGraph} (reachable : Reachable g) (fs : FileSystem) (raw : String) :
      Reachable (consult disk fs settings g raw) := by
    unfold consult
    cases Pattern.read raw settings.workingDir with
    | builtin => exact reachable_addBuiltin reachable settings.builtinDir
    | dir dir => exact reachable_considered reachable _
    | file file => exact reachable_considered reachable _
  refine reachable_considered (List.foldlRecOn patterns _ ?_ fun _ reached raw _ =>
    consults reached _ raw) _
  exact reachable_considered ⟨_, Run.start⟩ _

end Queries

end PackageLoader.LinkClosure
