import Mathlib.Data.List.Basic
import PackageLoader.Proofs.PatternRuns

/-! What is discovered later changes nothing that was discovered earlier. Every step of a query only
adds packages and roots behind those that are there, so a response reappears in any response to more:
its packages stand in front with fewer edges, namely those that lead to one of them. -/
namespace PackageLoader.LaterDiscovery
open FirstDiscovery Linking Offers PatternRuns TableLaws

/-! ## Graphs -/

/-- What is in the first graph stands in front in the second. -/
structure Grows (g g' : PackageGraph) : Prop where
  packages : g.packages <+: g'.packages
  roots : g.roots <+: g'.roots

theorem grows_refl (g : PackageGraph) : Grows g g :=
  ⟨List.prefix_refl _, List.prefix_refl _⟩

theorem Grows.trans {a b c : PackageGraph} (first : Grows a b) (second : Grows b c) : Grows a c :=
  ⟨first.packages.trans second.packages, first.roots.trans second.roots⟩

theorem grows_addRoot (g : PackageGraph) (id : PackageId) : Grows g (g.addRoot id) := by
  unfold PackageGraph.addRoot
  split
  · exact grows_refl g
  · exact ⟨List.prefix_refl _, List.prefix_append _ _⟩

theorem grows_insert (g : PackageGraph) (p : Package) : Grows g (g.insert p).1 := by
  unfold PackageGraph.insert
  split
  · exact grows_refl g
  · exact ⟨List.prefix_append _ _, List.prefix_refl _⟩

/-- Steps that grow a graph grow it as a run. -/
theorem grows_foldl {step : PackageGraph → α → PackageGraph} (grows : ∀ g a, Grows g (step g a))
    (items : List α) (g : PackageGraph) : Grows g (items.foldl step g) := by
  induction items generalizing g with
  | nil => exact grows_refl g
  | cons a rest ih => exact (grows g a).trans (ih (step g a))

theorem grows_insertFor (answers : Bool) (g : PackageGraph) (p : Package) :
    Grows g (g.insertFor answers p) := by
  have inserted := grows_insert g p
  unfold PackageGraph.insertFor
  split
  · rename_i g' id new
    rw [new] at inserted
    split
    · exact inserted.trans (grows_addRoot g' id)
    · exact inserted
  · rename_i g' refused
    rwa [refused] at inserted

theorem grows_consider (g : PackageGraph) (c : Candidate) : Grows g (consider g c) := by
  unfold consider
  split
  · exact grows_refl g
  · exact grows_foldl (grows_insertFor c.asked) c.packages g

theorem grows_addBuiltin (g : PackageGraph) (dir : Path) : Grows g (g.addBuiltin dir) := by
  have inserted := grows_insert g (builtinPackage dir)
  unfold PackageGraph.addBuiltin
  split
  · rename_i g' id new
    rw [new] at inserted
    exact inserted.trans (grows_addRoot g' id)
  · rename_i g' refused
    rw [refused] at inserted
    split
    · exact inserted.trans (grows_addRoot g' _)
    · exact inserted

theorem grows_consult (disk : Disk) (fs : FileSystem) (settings : Settings) (g : PackageGraph)
    (raw : String) : Grows g (consult disk fs settings g raw) := by
  unfold consult
  split
  · exact grows_addBuiltin g settings.builtinDir
  · exact grows_foldl grows_consider _ g
  · exact grows_foldl grows_consider _ g

theorem insert_roots (g : PackageGraph) (p : Package) : (g.insert p).1.roots = g.roots := by
  unfold PackageGraph.insert
  split <;> rfl

/-- Candidates that nobody asked for mark nothing. -/
theorem considered_unasked {cs : List Candidate} (unasked : ∀ c ∈ cs, c.asked = false)
    (g : PackageGraph) : (cs.foldl consider g).roots = g.roots := by
  have insertFor (g : PackageGraph) (p : Package) : (g.insertFor false p).roots = g.roots := by
    have inserted := insert_roots g p
    unfold PackageGraph.insertFor
    split <;> rename_i same <;> rwa [same] at inserted
  have all (ps : List Package) (g : PackageGraph) :
      (ps.foldl (·.insertFor false) g).roots = g.roots := by
    induction ps generalizing g with
    | nil => rfl
    | cons p rest ih => rw [List.foldl_cons, ih, insertFor]
  induction cs generalizing g with
  | nil => rfl
  | cons c rest ih =>
    rw [List.foldl_cons, ih fun c member => unasked c (List.mem_cons_of_mem _ member)]
    unfold consider
    split
    · rfl
    · rw [unasked c (List.mem_cons_self ..), all]

/-! ## Responses -/

/-- The packages of the first response stand in front in the second, and so do its roots. They have
the edges that they have in the second response and that lead to one of them. -/
structure Extends (r r' : Response) : Prop where
  longer : r.packages.length ≤ r'.packages.length
  packages : ∀ (i : Nat) (p p' : Package), r.packages[i]? = some p → r'.packages[i]? = some p' →
    p = { p' with imports := p.imports } ∧ ∀ path target?,
      p.imports.get? path = some target? ↔
        p'.imports.get? path = some target? ∧ ∃ k, target? = some k ∧ k < r.packages.length
  roots : r.roots <+: r'.roots

/-- Later packages leave the targets among the earlier ones alone. -/
theorem importTargets_prefix {packages all : List Package} (front : packages <+: all)
    (differ : PathsDiffer all) (path : String) (k : Nat) :
    (importTargets packages).get? path = some k ↔
      (importTargets all).get? path = some k ∧ k < packages.length := by
  have stands {p : Package} : packages[k]? = some p ↔ all[k]? = some p ∧ k < packages.length := by
    obtain ⟨more, rfl⟩ := front
    constructor
    · intro at_k
      have inside := (List.getElem?_eq_some_iff.mp at_k).1
      exact ⟨(List.getElem?_append_left inside).trans at_k, inside⟩
    · rintro ⟨at_k, inside⟩
      rwa [List.getElem?_append_left inside] at at_k
  rw [importTargets_unique (differ.sublist front.sublist), importTargets_unique differ]
  simp only [stands]
  constructor
  · rintro ⟨p, ⟨at_k, inside⟩, plain, same⟩
    exact ⟨⟨p, at_k, plain, same⟩, inside⟩
  · rintro ⟨⟨p, at_k, plain, same⟩, inside⟩
    exact ⟨p, ⟨at_k, inside⟩, plain, same⟩

theorem getElem?_grown {g g' : PackageGraph} (grows : Grows g g') {i : Nat}
    (below : i < g.packages.length) : g'.packages[i]? = g.packages[i]? := by
  obtain ⟨more, packages⟩ := grows.packages
  rw [← packages, List.getElem?_append_left below]

/-- Roots keep their identifiers. -/
theorem root_ids_grown {g g' : PackageGraph} (grows : Grows g g')
    (inside : ∀ i ∈ g.roots, i < g.packages.length) :
    g.roots.filterMap (fun i => (g'.get? i).map (·.id)) = g.parts.2 := by
  apply List.filterMap_congr
  intro i root
  rw [PackageGraph.get?, PackageGraph.get?, getElem?_grown grows (inside i root)]

/-- Packages that are linked in the order in which a graph has them, the builtin one without imports,
make a response that reappears when the graph has grown. -/
theorem answer_extends {settings settings' : Settings} {g g' : PackageGraph} (grows : Grows g g')
    (differ : PathsDiffer g'.packages) (inside : ∀ i ∈ g.roots, i < g.packages.length)
    (bare : ∀ p ∈ g.packages, p.origin = .builtin → p.imports = .empty) :
    Extends (answer settings g) (answer settings' g') := by
  constructor
  case longer =>
    simpa [answer, linkPackages] using grows.packages.length_le
  case packages =>
    intro i p p' at_i at_i'
    obtain ⟨before, stands, rfl⟩ := linkPackages_getElem?.mp at_i
    obtain ⟨before', stands', rfl⟩ := linkPackages_getElem?.mp at_i'
    rw [getElem?_grown grows (List.getElem?_eq_some_iff.mp stands).1, stands,
      Option.some.injEq] at stands'
    subst stands'
    refine ⟨by rw [link_keeps, link_keeps (importTargets g'.packages)], fun path target? => ?_⟩
    have length : (answer settings g).packages.length = g.packages.length := by
      simp [answer, linkPackages]
    rw [length]
    by_cases builtin : before.origin = .builtin
    · have empty := bare before (List.mem_of_getElem? stands) builtin
      simp [Package.link, builtin, empty]
    · rw [link_imports _ builtin, link_imports _ builtin]
      simp only [Option.bind_eq_some_iff, Option.map_eq_some_iff,
        importTargets_prefix grows.packages differ]
      constructor
      · rintro ⟨_, listed, k, ⟨target, below⟩, rfl⟩
        exact ⟨⟨_, listed, k, target, rfl⟩, k, rfl, below⟩
      · rintro ⟨⟨_, listed, k, target, rfl⟩, _, same, below⟩
        cases same
        exact ⟨_, listed, k, ⟨target, below⟩, rfl⟩
  case roots =>
    obtain ⟨later, roots⟩ := grows.roots
    refine ⟨later.filterMap fun i => (g'.get? i).map (·.id), ?_⟩
    show g.parts.2 ++ _ = g'.roots.filterMap fun i => (g'.get? i).map (·.id)
    rw [← roots, List.filterMap_append, root_ids_grown grows inside]

section Loading

variable {disk : Disk} {settings : Settings} {overlay : Overlay} {patterns : List String}
  {r : Response}

/-- The only builtin package on offer imports nothing. -/
theorem builtin_candidate_imports {c : Candidate}
    (member : c ∈ candidates disk settings overlay patterns) {p : Package} (own : p ∈ c.packages)
    (builtin : p.origin = .builtin) : p.imports = .empty := by
  cases candidate_offered member with
  | library plain home below found =>
    rw [List.mem_singleton.mp own] at builtin
    cases (library_package_fields found).1.symm.trans builtin
  | builtin given =>
    rw [List.mem_singleton.mp own]
    rfl
  | module asked plain read found =>
    rcases mem_moduleCandidate_packages own with rfl | ⟨rfl, -⟩
    · cases (listed_package_fields found).1.symm.trans builtin
    · cases (test_package_fields _ _).1.symm.trans builtin

/-- A response reappears in one whose graph has grown from its own. -/
theorem load_extends {settings' : Settings} {overlay' : Overlay} {patterns' : List String}
    {r' : Response} (ran : load disk settings overlay patterns = .ok r)
    (ran' : load disk settings' overlay' patterns' = .ok r')
    (grows : Grows (gathered disk settings overlay patterns)
      (gathered disk settings' overlay' patterns')) : Extends r r' := by
  obtain ⟨sound, rfl⟩ := load_eq_ok_iff.mp ran
  obtain ⟨sound', rfl⟩ := load_eq_ok_iff.mp ran'
  have reflects := gathered_reflects overlay sound
  have reflects' := gathered_reflects overlay' sound'
  refine answer_extends grows (reflects'.packages ▸ plain_paths_differ _)
    (fun i => root_lt_length reflects) fun p member builtin => ?_
  rw [reflects.packages] at member
  obtain ⟨c, kept, own⟩ := List.mem_flatMap.mp member
  exact builtin_candidate_imports (mem_of_mem_firsts kept) own builtin

theorem exampleCandidates_asked {fs : FileSystem} {c : Candidate}
    (member : c ∈ exampleCandidates disk fs settings) : c.asked = false := by
  unfold exampleCandidates at member
  split at member
  · split at member
    · exact treeCandidates_asked member
    · cases member
  · cases member

/-- Without examples, what was gathered is what the patterns found. -/
theorem gathered_bare (disk : Disk) (settings : Settings) (overlay : Overlay)
    (patterns : List String) :
    gathered disk { settings with withExamples := false } overlay patterns =
      consulted disk settings overlay patterns := by
  have none : exampleCandidates disk (overlay.inFrontOf disk.fileSystem)
      { settings with withExamples := false } = [] := by
    unfold exampleCandidates
    split <;> rfl
  rw [gathered, none]
  rfl

/-- Without examples, a response reappears in every response to more patterns, and in the response
with examples, which has the same roots. -/
theorem load_keeps_earlier (settings : Settings) :
    let bare := { settings with withExamples := false }
    let full := { settings with withExamples := true }
    ∀ r, load disk bare overlay patterns = .ok r →
      (∀ later r', load disk bare overlay (patterns ++ later) = .ok r' → Extends r r') ∧
      ∀ r', load disk full overlay patterns = .ok r' → Extends r r' ∧ r'.roots = r.roots := by
  intro bare full r ran
  have without := gathered_bare disk settings overlay
  refine ⟨fun later r' ran' => load_extends ran ran' ?_, fun r' ran' => ?_⟩
  · rw [without, without, consulted, consulted, List.foldl_append]
    exact grows_foldl (grows_consult disk _ bare) later _
  · have grows : Grows (gathered disk bare overlay patterns) (gathered disk full overlay patterns) := by
      rw [without]
      exact grows_foldl grows_consider _ (consulted disk full overlay patterns)
    refine ⟨load_extends ran ran' grows, ?_⟩
    obtain ⟨sound, rfl⟩ := load_eq_ok_iff.mp ran
    obtain ⟨-, rfl⟩ := load_eq_ok_iff.mp ran'
    have marks : (gathered disk full overlay patterns).roots =
        (gathered disk bare overlay patterns).roots := by
      rw [without]
      exact considered_unasked (fun c => exampleCandidates_asked)
        (consulted disk full overlay patterns)
    have inside := fun i => root_lt_length (gathered_reflects overlay sound) (i := i)
    show (gathered disk full overlay patterns).roots.filterMap _ = _
    rw [marks]
    exact root_ids_grown grows inside

end Loading

/-- A module that imports an example. -/
def exampleDisk : Disk where
  root := [
    ("examples", .directory [
      ("e", .directory [
        ("e.gno", .file (Text.utf8Bytes "package e\n")),
        ("gno.mod", .file (Text.utf8Bytes "module e\n"))])]),
    ("w", .directory [
      ("gno.mod", .file (Text.utf8Bytes "module w\n")),
      ("w.gno", .file (Text.utf8Bytes "package w\nimport \"e\"\nimport \"w\"\n"))])]
  ordered := .directory (by decide) (by
    simp only [List.mem_cons, List.not_mem_nil, or_false, forall_eq_or_imp, forall_eq]
    refine ⟨.directory (by decide) ?_, .directory (by decide) ?_⟩
    · simp only [List.mem_cons, List.not_mem_nil, or_false, forall_eq]
      refine .directory (by decide) ?_
      simp only [List.mem_cons, List.not_mem_nil, or_false, forall_eq_or_imp, forall_eq]
      exact ⟨.file _, .file _⟩
    · simp only [List.mem_cons, List.not_mem_nil, or_false, forall_eq_or_imp, forall_eq]
      exact ⟨.file _, .file _⟩)
  workingDir := []

def exampleSettings (withExamples : Bool) : Settings :=
  { sampleSettings with root? := some ⟨"/"⟩, withExamples }

/-- The example is found late, and the edge to it is all that changes. -/
theorem example_keeps_earlier : ∃ r asked unasked,
    load exampleDisk (exampleSettings false) .empty ["/w"] = .ok r ∧
    load exampleDisk (exampleSettings false) .empty (["/w"] ++ ["/examples"]) = .ok asked ∧
    load exampleDisk (exampleSettings true) .empty ["/w"] = .ok unasked ∧
    r.packages.map (·.imports.entries) = [[("w", some 0)]] ∧
    unasked.packages.map (·.imports.entries) = [[("e", some 1), ("w", some 0)], []] ∧
    asked.roots = ["w", "e"] ∧ Extends r asked ∧ Extends r unasked ∧ unasked.roots = r.roots := by
  obtain ⟨r, ran, edges⟩ : ∃ r, load exampleDisk (exampleSettings false) .empty ["/w"] = .ok r ∧
      r.packages.map (·.imports.entries) = [[("w", some 0)]] :=
    exists_ok_of_any (by decide +kernel)
  obtain ⟨asked, ranAsked, roots⟩ : ∃ r,
      load exampleDisk (exampleSettings false) .empty (["/w"] ++ ["/examples"]) = .ok r ∧
        r.roots = ["w", "e"] :=
    exists_ok_of_any (by decide +kernel)
  obtain ⟨unasked, ranUnasked, more⟩ : ∃ r,
      load exampleDisk (exampleSettings true) .empty ["/w"] = .ok r ∧
        r.packages.map (·.imports.entries) = [[("e", some 1), ("w", some 0)], []] :=
    exists_ok_of_any (by decide +kernel)
  obtain ⟨later, examples⟩ := load_keeps_earlier (exampleSettings false) r ran
  exact ⟨r, asked, unasked, ran, ranAsked, ranUnasked, edges, more, roots,
    later ["/examples"] asked ranAsked, examples unasked ranUnasked⟩

end PackageLoader.LaterDiscovery
