import Mathlib.Data.List.Induction
import Mathlib.Data.List.Nodup
import Mathlib.Data.List.Pairwise
import PackageLoader.Proofs.ImportEdges
import PackageLoader.Response.Text

/-! On the wire packages are told apart by identifier alone. Paths are kept apart by the graph, but the
identifier of external tests is made from the path of their base and is compared with nothing, so
identifiers are unique exactly as long as no candidate lays claim to a path that has been made that
way. Where one does, whichever of the two packages stands first is found under the identifier. -/
namespace PackageLoader.WireIdentity
open FirstDiscovery ImportEdges Linking Offers TableLaws

variable {disk : Disk} {settings : Settings} {overlay : Overlay} {patterns : List String}
  {r : Response}

/-- The external tests of the first candidate go by the path of the second. -/
def Clash (c d : Candidate) : Prop :=
  c.tests?.isSome ∧ d.path = c.path ++ testSuffix

/-- Identifiers are paths, and external tests have the path of their base with the suffix. -/
theorem candidate_ids {c : Candidate} (member : c ∈ candidates disk settings overlay patterns) :
    c.package.id = c.path ∧ ∀ tests ∈ c.tests?, tests.id = c.path ++ testSuffix := by
  cases candidate_offered member with
  | library plain home below found =>
    exact ⟨(library_package_fields found).2, fun tests impossible => by cases impossible⟩
  | builtin given => exact ⟨rfl, fun tests impossible => by cases impossible⟩
  | module asked plain read found =>
    obtain ⟨-, path, id⟩ := listed_package_fields found
    refine ⟨id.trans path.symm, fun tests kept => ?_⟩
    obtain ⟨rfl, -⟩ := mem_moduleCandidate_tests.mp kept
    exact (test_package_fields _ _).2.2

/-! ## Positions -/

/-- What tells the packages of a graph apart: the path of their candidate, and whether they are its
external tests. -/
def place (e : Candidate × Package) : String × Bool :=
  (e.1.path, e.2.isExternalTest)

theorem owned_places_nodup (cs : List Candidate) : ((owned (firsts cs)).map place).Nodup := by
  refine List.pairwise_map.mpr (List.pairwise_flatMap.mpr ⟨fun c _ => ?_, ?_⟩)
  · refine List.pairwise_map.mpr (List.pairwise_cons.mpr ⟨fun tests own same => ?_, ?_⟩)
    · have flags : c.package.isExternalTest = tests.isExternalTest := congrArg Prod.snd same
      rw [c.plain, (c.separate tests (Option.mem_toList.mp own)).1] at flags
      cases flags
    · cases c.tests? <;> simp
  · refine (List.pairwise_map.mp (firsts_paths_nodup cs)).imp ?_
    intro c d different e first f second same
    obtain ⟨p, -, rfl⟩ := List.mem_map.mp first
    obtain ⟨q, -, rfl⟩ := List.mem_map.mp second
    exact different (congrArg Prod.fst same)

theorem place_injective {cs : List Candidate} {i j : Nat} {e f : Candidate × Package}
    (at_i : (owned (firsts cs))[i]? = some e) (at_j : (owned (firsts cs))[j]? = some f)
    (same : place e = place f) : i = j := by
  have inside : i < ((owned (firsts cs)).map place).length := by
    rw [List.length_map]
    exact (List.getElem?_eq_some_iff.mp at_i).1
  refine (List.getElem?_inj inside (owned_places_nodup cs)).mp ?_
  rw [List.getElem?_map, List.getElem?_map, at_i, at_j, Option.map_some, Option.map_some, same]

/-- Identifiers as `candidate_ids` says that they are. -/
def Identified (cs : List Candidate) : Prop :=
  ∀ c ∈ cs, c.package.id = c.path ∧ ∀ tests ∈ c.tests?, tests.id = c.path ++ testSuffix

theorem owned_id {cs : List Candidate} (identified : Identified cs) {e : Candidate × Package}
    (member : e ∈ owned (firsts cs)) :
    e.2.isExternalTest = false ∧ e.2.id = e.1.path ∨
      e.2.isExternalTest = true ∧ e.1.tests?.isSome ∧ e.2.id = e.1.path ++ testSuffix := by
  obtain ⟨kept, own⟩ := mem_owned member
  obtain ⟨id, tests⟩ := identified e.1 (mem_of_mem_firsts kept)
  rcases List.mem_cons.mp own with same | separate
  · exact Or.inl ⟨same ▸ e.1.plain, same ▸ id⟩
  · have present := Option.mem_toList.mp separate
    exact Or.inr ⟨(e.1.separate e.2 present).1, Option.isSome_of_mem present, tests e.2 present⟩

/-- Different positions share an identifier exactly if one has the external tests of a candidate and
the other the package of one that clashes with it. -/
theorem shared_id_iff {cs : List Candidate} (identified : Identified cs) {i j : Nat}
    {e f : Candidate × Package} (at_i : (owned (firsts cs))[i]? = some e)
    (at_j : (owned (firsts cs))[j]? = some f) (apart : i ≠ j) :
    e.2.id = f.2.id ↔
      e.2.isExternalTest = true ∧ f.2.isExternalTest = false ∧ Clash e.1 f.1 ∨
        e.2.isExternalTest = false ∧ f.2.isExternalTest = true ∧ Clash f.1 e.1 := by
  have placed : place e ≠ place f := fun same => apart (place_injective at_i at_j same)
  rcases owned_id identified (List.mem_of_getElem? at_i) with ⟨flag, id⟩ | ⟨flag, some, id⟩ <;>
    rcases owned_id identified (List.mem_of_getElem? at_j) with
      ⟨flag', id'⟩ | ⟨flag', some', id'⟩
  · have : e.1.path ≠ f.1.path := by simpa [place, flag, flag'] using placed
    simp [id, id', flag, flag', this]
  · simp [id, id', flag, flag', Clash, some']
  · simp [id, id', flag, flag', Clash, some, eq_comm (a := f.1.path)]
  · have : e.1.path ≠ f.1.path := by simpa [place, flag, flag'] using placed
    simp [id, id', flag, flag', this]

/-- The identifier at a position. -/
def ownedId (cs : List Candidate) (i : Nat) : Option String :=
  ((owned (firsts cs))[i]?).map fun e => e.2.id

/-- Among positions that are marked candidate by candidate, identifiers are distinct exactly if no
two marked candidates clash. -/
theorem marked_ids_nodup_iff {cs : List Candidate} (identified : Identified cs) {marks : List Nat}
    (once : marks.Nodup) (asks : Candidate → Prop) (marked : ∀ i, i ∈ marks ↔
      ∃ e, (owned (firsts cs))[i]? = some e ∧ asks e.1) :
    (marks.filterMap (ownedId cs)).Nodup ↔
      ∀ c ∈ firsts cs, ∀ d ∈ firsts cs, asks c → asks d → ¬ Clash c d := by
  rw [List.Nodup, List.pairwise_filterMap]
  have symmetric : Std.Symm fun i j =>
      ∀ a, ownedId cs i = some a → ∀ b, ownedId cs j = some b → a ≠ b :=
    ⟨fun i j differ a first b second same => differ b second a first same.symm⟩
  constructor
  · intro distinct c keptC d keptD askC askD clash
    obtain ⟨tests, some⟩ := Option.isSome_iff_exists.mp clash.1
    have ownTests : (c, tests) ∈ owned (firsts cs) :=
      List.mem_flatMap.mpr ⟨c, keptC, List.mem_map_of_mem (by simp [Candidate.packages, some])⟩
    have ownPlain : (d, d.package) ∈ owned (firsts cs) :=
      List.mem_flatMap.mpr ⟨d, keptD, List.mem_map_of_mem (List.mem_cons_self ..)⟩
    obtain ⟨i, at_i⟩ := List.mem_iff_getElem?.mp ownTests
    obtain ⟨j, at_j⟩ := List.mem_iff_getElem?.mp ownPlain
    have flag := (c.separate tests some).1
    have apart : i ≠ j := by
      rintro rfl
      rw [at_i, Option.some.injEq, Prod.mk.injEq] at at_j
      rw [at_j.2, d.plain] at flag
      cases flag
    have shared := (shared_id_iff identified at_i at_j apart).mpr (.inl ⟨flag, d.plain, clash⟩)
    exact distinct.forall ((marked i).mpr ⟨_, at_i, askC⟩) ((marked j).mpr ⟨_, at_j, askD⟩) apart
      _ (by rw [ownedId, at_i]; rfl) _ (by rw [ownedId, at_j]; rfl) shared
  · intro clear
    apply once.pairwise_of_forall_ne
    intro i markI j markJ apart a first b second same
    obtain ⟨e, at_i, askE⟩ := (marked i).mp markI
    obtain ⟨f, at_j, askF⟩ := (marked j).mp markJ
    obtain ⟨keptE, -⟩ := mem_owned (List.mem_of_getElem? at_i)
    obtain ⟨keptF, -⟩ := mem_owned (List.mem_of_getElem? at_j)
    rw [ownedId, at_i, Option.map_some, Option.some.injEq] at first
    rw [ownedId, at_j, Option.map_some, Option.some.injEq] at second
    have shared : e.2.id = f.2.id := first.trans (same.trans second.symm)
    rcases (shared_id_iff identified at_i at_j apart).mp shared with ⟨-, -, clash⟩ | ⟨-, -, clash⟩
    · exact clear e.1 keptE f.1 keptF askE askF clash
    · exact clear f.1 keptF e.1 keptE askF askE clash

theorem filterMap_range_getElem? {α : Type} (items : List α) :
    (List.range items.length).filterMap (items[·]?) = items := by
  induction items using List.reverseRecOn with
  | nil => rfl
  | append_singleton items last ih =>
    have old : (List.range items.length).filterMap ((items ++ [last])[·]?) =
        (List.range items.length).filterMap (items[·]?) :=
      List.filterMap_congr fun i below => List.getElem?_append_left (List.mem_range.mp below)
    rw [List.length_append, List.length_singleton, List.range_succ, List.filterMap_append, old, ih]
    simp

/-- All identifiers are distinct exactly if no two candidates clash. -/
theorem ids_nodup_iff {cs : List Candidate} (identified : Identified cs) :
    ((owned (firsts cs)).map (·.2.id)).Nodup ↔
      ∀ c ∈ firsts cs, ∀ d ∈ firsts cs, ¬ Clash c d := by
  have everywhere : (owned (firsts cs)).map (·.2.id) =
      (List.range (owned (firsts cs)).length).filterMap (ownedId cs) := by
    unfold ownedId
    rw [← List.map_filterMap, filterMap_range_getElem?]
  have marked (i : Nat) : i ∈ List.range (owned (firsts cs)).length ↔
      ∃ e, (owned (firsts cs))[i]? = some e ∧ True := by
    simp [← Option.isSome_iff_exists]
  rw [everywhere, marked_ids_nodup_iff identified List.nodup_range (fun _ => True) marked]
  simp

/-! ## Look-up -/

/-- Written edges carry the identifier of the package that the edge points at. -/
theorem mem_importIds {p : Package} {e : String × String}
    (edge : e ∈ p.importIds r.packages) :
    ∃ (i : Nat) (q : Package), p.imports.get? e.1 = some (some i) ∧ r.packages[i]? = some q ∧
      r.importTarget? p e.1 = some q ∧ q.id = e.2 := by
  obtain ⟨⟨path, target?⟩, listed, written⟩ := List.mem_filterMap.mp edge
  obtain ⟨q, points, rfl⟩ := Option.map_eq_some_iff.mp written
  obtain ⟨i, rfl, at_i⟩ := Option.bind_eq_some_iff.mp points
  have found := get?_eq_some_iff.mpr listed
  exact ⟨i, q, found, at_i, by simp [Response.importTarget?, found, at_i], rfl⟩

theorem candidates_identified : Identified (candidates disk settings overlay patterns) :=
  fun _ member => candidate_ids member

/-- The positions of a response and those of its candidates are the same. -/
theorem load_owned (ran : load disk settings overlay patterns = .ok r) (i : Nat) :
    (r.packages[i]?).map (·.id) = ownedId (candidates disk settings overlay patterns) i := by
  obtain ⟨g, discovered, packages, -⟩ := load_eq_discover ran
  rw [packages, (discover_reflects discovered).packages, ← owned_packages, linkPackages, ownedId]
  simp [Function.comp_def]

theorem load_plain_id (ran : load disk settings overlay patterns = .ok r) {p : Package}
    (member : p ∈ r.packages) (plain : p.isExternalTest = false) : p.id = p.path := by
  obtain ⟨found, packages, -, offered⟩ := load_links ran
  rw [packages] at member
  obtain ⟨before, accepted, rfl⟩ := List.mem_map.mp member
  obtain ⟨c, given, own⟩ := offered before accepted
  rw [link_isExternalTest] at plain
  rw [link_id, link_path, plain_of_mem_packages own plain]
  exact (candidate_ids given).1

/-- The builtin package has no edges. -/
theorem load_builtin_importIds (ran : load disk settings overlay patterns = .ok r) {p : Package}
    (member : p ∈ r.packages) (builtin : p.origin = .builtin) : p.importIds r.packages = [] := by
  obtain ⟨found, packages, -, offered⟩ := load_links ran
  rw [packages] at member
  obtain ⟨before, accepted, rfl⟩ := List.mem_map.mp member
  obtain ⟨c, given, own⟩ := offered before accepted
  rw [link_origin] at builtin
  rw [Package.link, if_pos builtin]
  cases candidate_offered given with
  | library plain home below found =>
    rw [List.mem_singleton.mp own] at builtin
    cases (library_package_fields found).1.symm.trans builtin
  | builtin given =>
    rw [List.mem_singleton.mp own]
    rfl
  | module asked plain read found =>
    rcases mem_moduleCandidate_packages own with rfl | ⟨rfl, -⟩
    · cases (listed_package_fields found).1.symm.trans builtin
    · cases (test_package_fields _ _).1.symm.trans builtin

/-- The identifier of an edge finds the target of the edge exactly if no external tests that go by
it stand before the target. -/
theorem find_edge_iff (ran : load disk settings overlay patterns = .ok r) {i : Nat} {q : Package}
    (at_i : r.packages[i]? = some q) (plain : q.isExternalTest = false) :
    r.find? q.id = some q ↔
      ∀ (j : Nat) (t : Package), r.packages[j]? = some t → t.isExternalTest = true →
        t.id = q.id → i < j := by
  have differ := load_pathsDiffer ran
  rw [Response.find?, List.find?_eq_some_iff_getElem]
  constructor
  · rintro ⟨-, k, inside, at_k, before⟩ j t at_j separate same
    have k_eq : k = i := position_unique differ (List.getElem?_eq_some_iff.mpr ⟨inside, at_k⟩) at_i
      plain plain rfl
    subst k_eq
    rcases Nat.lt_trichotomy j k with less | rfl | greater
    · obtain ⟨insideJ, rfl⟩ := List.getElem?_eq_some_iff.mp at_j
      have other := before j less
      simp [same] at other
    · rw [at_i, Option.some.injEq] at at_j
      rw [← at_j, plain] at separate
      cases separate
    · exact greater
  · intro behind
    obtain ⟨inside, rfl⟩ := List.getElem?_eq_some_iff.mp at_i
    refine ⟨by simp, i, inside, rfl, fun j less => ?_⟩
    have at_j := List.getElem?_eq_getElem (Nat.lt_trans less inside)
    have other : r.packages[j].id ≠ r.packages[i].id := by
      intro same
      cases flag : r.packages[j].isExternalTest with
      | true => exact Nat.lt_asymm less (behind j _ at_j flag same)
      | false =>
        rw [load_plain_id ran (List.getElem_mem _) flag,
          load_plain_id ran (List.getElem_mem _) plain] at same
        exact absurd (position_unique differ at_j at_i flag plain same) (Nat.ne_of_lt less)
    simpa using other

/-- Identifiers, and roots, are distinct exactly if no two of their candidates clash, and the
identifier written for an edge finds the target of the edge exactly if no external tests that go by
it stand before the target. -/
theorem load_ids_identify (ran : load disk settings overlay patterns = .ok r) :
    let winners := firsts (candidates disk settings overlay patterns)
    let answering := winners.filter (·.answers (patterns.contains builtinPath))
    ((r.packages.map (·.id)).Nodup ↔ ∀ c ∈ winners, ∀ d ∈ winners, ¬ Clash c d) ∧
      (r.roots.Nodup ↔ ∀ c ∈ answering, ∀ d ∈ answering, ¬ Clash c d) ∧
      ∀ p ∈ r.packages, ∀ e ∈ p.importIds r.packages, ∃ (i : Nat) (q : Package),
        r.importTarget? p e.1 = some q ∧ r.packages[i]? = some q ∧ q.id = e.2 ∧
          (r.find? e.2 = some q ↔ ∀ (j : Nat) (t : Package), r.packages[j]? = some t →
            t.isExternalTest = true → t.id = e.2 → i < j) := by
  intro winners answering
  refine ⟨?_, ?_, fun p member e edge => ?_⟩
  · rw [← ids_nodup_iff candidates_identified]
    have same : r.packages.map (·.id) = (owned winners).map (·.2.id) :=
      List.ext_getElem? fun i => by
        rw [List.getElem?_map, List.getElem?_map, load_owned ran]
        rfl
    rw [same]
  · obtain ⟨g, discovered, packages, roots⟩ := load_eq_discover ran
    have reflects := discover_reflects discovered
    have written : r.roots = g.roots.filterMap
        (ownedId (candidates disk settings overlay patterns)) := by
      rw [roots, PackageGraph.parts]
      apply List.filterMap_congr
      intro i _
      rw [← load_owned ran, packages]
      simp [PackageGraph.get?, linkPackages, Function.comp_def]
    rw [written, marked_ids_nodup_iff candidates_identified reflects.once
      (·.answers (patterns.contains builtinPath) = true) reflects.marked]
    simp only [answering, List.mem_filter]
    exact ⟨fun clear c hc d hd => clear c hc.1 d hd.1 hc.2 hd.2,
      fun clear c keptC d keptD askC askD => clear c ⟨keptC, askC⟩ d ⟨keptD, askD⟩⟩
  · by_cases builtin : p.origin = .builtin
    · rw [load_builtin_importIds ran member builtin] at edge
      cases edge
    · obtain ⟨i, q, found, at_i, target, id⟩ := mem_importIds edge
      obtain ⟨k, q', same, at_k, plain, -⟩ := load_edge ran member builtin found
      cases same
      rw [at_i, Option.some.injEq] at at_k
      subst at_k
      exact ⟨i, q, target, at_i, id, id ▸ find_edge_iff ran at_i plain⟩

/-- The identifiers are distinct, so no candidates clash. -/
theorem sample_ids_identify : ∃ r, load sampleDisk sampleSettings .empty ["/", "builtin"] = .ok r ∧
    r.roots.Nodup ∧
    ∀ c ∈ firsts (candidates sampleDisk sampleSettings .empty ["/", "builtin"]),
      ∀ d ∈ firsts (candidates sampleDisk sampleSettings .empty ["/", "builtin"]), ¬ Clash c d := by
  obtain ⟨r, ran, ids, -, -, roots⟩ := sample_response
  exact ⟨r, ran, by simp [roots], (load_ids_identify ran).1.mp (by simp [ids])⟩

/-- A module with external tests, and below it a module that goes by the path of those and imports
itself. -/
def clashDisk : Disk where
  root := [
    ("a_test.gno", .file (Text.utf8Bytes "package a_test\n")),
    ("b", .directory [
      ("b.gno", .file (Text.utf8Bytes "package b\nimport \"a_test\"\n")),
      ("gno.mod", .file (Text.utf8Bytes "module a_test\n"))]),
    ("gno.mod", .file (Text.utf8Bytes "module a\n"))]
  ordered := .directory (by decide) (by
    simp only [List.mem_cons, List.not_mem_nil, or_false, forall_eq_or_imp, forall_eq]
    refine ⟨.file _, .directory (by decide) ?_, .file _⟩
    simp only [List.mem_cons, List.not_mem_nil, or_false, forall_eq_or_imp, forall_eq]
    exact ⟨.file _, .file _⟩)
  workingDir := []

/-- Identifiers and roots come twice, and the identifier of an edge finds another package than the
target of the edge. -/
theorem clash_confuses_edge : ∃ r p e, load clashDisk sampleSettings .empty ["/"] = .ok r ∧
    ¬ (r.packages.map (·.id)).Nodup ∧ ¬ r.roots.Nodup ∧ p ∈ r.packages ∧
      e ∈ p.importIds r.packages ∧ r.find? e.2 ≠ r.importTarget? p e.1 := by
  obtain ⟨r, ran, ids, roots, p, member, e, edge, other⟩ : ∃ r,
      load clashDisk sampleSettings .empty ["/"] = .ok r ∧
        ¬ (r.packages.map (·.id)).Nodup ∧ ¬ r.roots.Nodup ∧
          ∃ p ∈ r.packages, ∃ e ∈ p.importIds r.packages, r.find? e.2 ≠ r.importTarget? p e.1 :=
    exists_ok_of_any (by decide +kernel)
  exact ⟨r, p, e, ran, ids, roots, member, edge, other⟩

end PackageLoader.WireIdentity
