import PackageLoader.Package.Graph
import PackageLoader.Proofs.Linking

/-! A graph keeps three accounts of what was done to it: packages by position, positions by path, and
the positions that answer the query. Whatever calls are made, in whatever order, each account says
what the history of the calls says, so positions that were given out stay good. -/
namespace PackageLoader.GraphRuns
open Linking TableLaws

variable {g : PackageGraph} {p : Package}

/-! ## One call -/

/-- A package is turned away because its path is taken, or it goes behind the others. -/
theorem insert_cases (g : PackageGraph) (p : Package) :
    p.isExternalTest = false ∧ g.containsPath p.path = true ∧ g.insert p = (g, none) ∨
      (p.isExternalTest = true ∨ g.containsPath p.path = false) ∧
        g.insert p = (g.append p, some g.packages.length) := by
  unfold PackageGraph.insert
  cases separate : p.isExternalTest <;> cases taken : g.containsPath p.path <;> simp

theorem insert_free (free : p.isExternalTest = true ∨ g.containsPath p.path = false) :
    g.insert p = (g.append p, some g.packages.length) := by
  rcases insert_cases g p with ⟨plain, taken, -⟩ | ⟨-, accepted⟩
  · simp [plain, taken] at free
  · exact accepted

@[simp] theorem addRoot_packages (g : PackageGraph) (id : PackageId) :
    (g.addRoot id).packages = g.packages := by
  unfold PackageGraph.addRoot
  split <;> rfl

@[simp] theorem addRoot_byPath (g : PackageGraph) (id : PackageId) :
    (g.addRoot id).byPath = g.byPath := by
  unfold PackageGraph.addRoot
  split <;> rfl

theorem mem_addRoot (g : PackageGraph) (id i : PackageId) :
    i ∈ (g.addRoot id).roots ↔ i ∈ g.roots ∨ i = id := by
  unfold PackageGraph.addRoot
  split
  · rename_i present
    exact ⟨Or.inl, fun either => either.elim (·) fun same => same ▸ List.contains_iff_mem.mp present⟩
  · simp

theorem addRoot_root {id : PackageId} (root : id ∈ g.roots) : g.addRoot id = g :=
  if_pos (List.contains_iff_mem.mpr root)

theorem addRoot_nodup (id : PackageId) (once : g.roots.Nodup) : (g.addRoot id).roots.Nodup := by
  unfold PackageGraph.addRoot
  split
  · exact once
  · rename_i absent
    refine List.nodup_append.mpr ⟨once, by simp, ?_⟩
    rintro i old _ new rfl
    rw [List.mem_singleton] at new
    exact absent (List.contains_iff_mem.mpr (new ▸ old))

/-! ## Paths -/

/-- A path is found where a package stands that has it and is no external test. -/
def Indexed (g : PackageGraph) : Prop :=
  ∀ (path : String) (i : Nat), g.lookup path = some i ↔
    ∃ p, g.packages[i]? = some p ∧ p.isExternalTest = false ∧ p.path = path

theorem containsPath_eq (g : PackageGraph) (path : String) :
    g.containsPath path = (g.lookup path).isSome := rfl

theorem indexed_empty : Indexed {} := by
  intro path i
  simp [PackageGraph.lookup]

theorem indexed_addRoot (indexed : Indexed g) (id : PackageId) : Indexed (g.addRoot id) := by
  intro path i
  rw [PackageGraph.lookup, addRoot_byPath, addRoot_packages]
  exact indexed path i

/-- A taken path is that of some package. -/
theorem containsPath_iff_mem (indexed : Indexed g) (path : String) : g.containsPath path = true ↔
    ∃ p ∈ g.packages, p.isExternalTest = false ∧ p.path = path := by
  rw [containsPath_eq, Option.isSome_iff_exists]
  constructor
  · rintro ⟨i, found⟩
    obtain ⟨p, at_i, plain, same⟩ := (indexed path i).mp found
    exact ⟨p, List.mem_of_getElem? at_i, plain, same⟩
  · rintro ⟨p, member, plain, same⟩
    obtain ⟨i, at_i⟩ := List.mem_iff_getElem?.mp member
    exact ⟨i, (indexed path i).mpr ⟨p, at_i, plain, same⟩⟩

theorem lookup_append (g : PackageGraph) (p : Package) (path : String) :
    (g.append p).lookup path =
      if p.isExternalTest = false ∧ p.path = path then some g.packages.length else g.lookup path := by
  unfold PackageGraph.lookup PackageGraph.append
  cases separate : p.isExternalTest with
  | true => simp
  | false =>
    simp only [Bool.false_eq_true, ↓reduceIte, get?_insert, Std.compare_eq_iff_eq, true_and]
    exact if_congr eq_comm rfl rfl

/-- A package whose path is free is found behind the others, and they are found where they were. -/
theorem indexed_append (indexed : Indexed g)
    (free : p.isExternalTest = true ∨ g.containsPath p.path = false) : Indexed (g.append p) := by
  intro path i
  have behind : (g.append p).packages = g.packages ++ [p] := rfl
  rw [lookup_append, behind]
  simp only [getElem?_concat_iff]
  by_cases held : p.isExternalTest = false ∧ p.path = path
  · obtain ⟨plain, rfl⟩ := held
    have unheld : ∀ q, g.packages[i]? = some q → q.isExternalTest = false → q.path ≠ p.path := by
      intro q at_i other same
      have taken := (containsPath_iff_mem indexed p.path).mpr
        ⟨q, List.mem_of_getElem? at_i, other, same⟩
      simp [plain, taken] at free
    rw [if_pos ⟨plain, rfl⟩, Option.some.injEq]
    constructor
    · rintro rfl
      exact ⟨p, Or.inr ⟨rfl, rfl⟩, plain, rfl⟩
    · rintro ⟨q, at_i | ⟨rfl, -⟩, other, same⟩
      · exact absurd same (unheld q at_i other)
      · rfl
  · rw [if_neg held, indexed path i]
    constructor
    · rintro ⟨q, at_i, plain, same⟩
      exact ⟨q, Or.inl at_i, plain, same⟩
    · rintro ⟨q, at_i | ⟨-, rfl⟩, plain, same⟩
      · exact ⟨q, at_i, plain, same⟩
      · exact absurd ⟨plain, same⟩ held

theorem indexed_insert (indexed : Indexed g) (p : Package) : Indexed (g.insert p).1 := by
  rcases insert_cases g p with ⟨-, -, refused⟩ | ⟨free, accepted⟩
  · rw [refused]
    exact indexed
  · rw [accepted]
    exact indexed_append indexed free

/-- Where every path is found in one place, no two packages share it. -/
theorem indexed_pathsDiffer (indexed : Indexed g) : PathsDiffer g.packages := by
  refine List.pairwise_iff_getElem.mpr fun i j insideI insideJ before plain other same => ?_
  have first := (indexed _ i).mpr ⟨_, List.getElem?_eq_getElem insideI, plain, same⟩
  have second := (indexed _ j).mpr ⟨_, List.getElem?_eq_getElem insideJ, other, rfl⟩
  rw [first, Option.some.injEq] at second
  exact absurd second (Nat.ne_of_lt before)

/-! ## Histories -/

/-- A call and what it answered. -/
inductive Event where
  | insert (p : Package) (answer : Option PackageId)
  | lookup (path : String) (answer : Option PackageId)
  | addRoot (id : PackageId)

namespace Event

/-- The package that a call added. -/
def added? : Event → Option Package
  | insert p (some _) => some p
  | _ => none

/-- The position that a call gave out. -/
def given? : Event → Option PackageId
  | insert _ answer => answer
  | lookup _ answer => answer
  | addRoot _ => none

/-- The position that a call marked. -/
def marked? : Event → Option PackageId
  | addRoot id => some id
  | _ => none

end Event

/-- A sequence of calls on an empty graph, the last call at the end, and the graph that it leaves.
Only positions that some call gave out are marked. -/
inductive Run : List Event → PackageGraph → Prop where
  | start : Run [] {}
  | insert {events : List Event} {g : PackageGraph} (run : Run events g) (p : Package) :
      Run (events ++ [.insert p (g.insert p).2]) (g.insert p).1
  | lookup {events : List Event} {g : PackageGraph} (run : Run events g) (path : String) :
      Run (events ++ [.lookup path (g.lookup path)]) g
  | addRoot {events : List Event} {g : PackageGraph} (run : Run events g) (id : PackageId)
      (given : id ∈ events.filterMap (·.given?)) : Run (events ++ [.addRoot id]) (g.addRoot id)

/-- The accounts of a graph agree with a history: it lists what was added, finds paths, has what it
gave out positions for, and marks in the order of the first marks. -/
structure Records (g : PackageGraph) (events : List Event) : Prop where
  packages : g.packages = events.filterMap (·.added?)
  indexed : Indexed g
  placed : ∀ p id, .insert p (some id) ∈ events → g.packages[id]? = some p
  refused : ∀ p, .insert p none ∈ events → p.isExternalTest = false
  given : ∀ id ∈ events.filterMap (·.given?), id < g.packages.length
  roots : g.roots = (events.filterMap (·.marked?)).eraseDups
  once : g.roots.Nodup
  inside : ∀ id ∈ g.roots, id < g.packages.length

section Steps

variable {events : List Event}

theorem records_start : Records {} [] where
  packages := rfl
  indexed := indexed_empty
  placed := fun p id member => by cases member
  refused := fun p member => by cases member
  given := fun id member => by cases member
  roots := rfl
  once := List.nodup_nil
  inside := fun id member => by cases member

/-- A call that adds and marks nothing leaves the accounts as they are. -/
theorem records_idle (records : Records g events) {e : Event} (addsNone : e.added? = none)
    (marksNone : e.marked? = none) (gives : ∀ id ∈ e.given?, id < g.packages.length)
    (plain : ∀ p, e = .insert p none → p.isExternalTest = false) : Records g (events ++ [e]) where
  packages := by rw [records.packages, List.filterMap_append]; simp [addsNone]
  indexed := records.indexed
  placed := by
    intro p id member
    rcases List.mem_append.mp member with old | new
    · exact records.placed p id old
    · rw [← List.mem_singleton.mp new] at addsNone
      cases addsNone
  refused := by
    intro p member
    rcases List.mem_append.mp member with old | new
    · exact records.refused p old
    · exact plain p (List.mem_singleton.mp new).symm
  given := by
    intro id member
    rw [List.filterMap_append] at member
    rcases List.mem_append.mp member with old | new
    · exact records.given id old
    · obtain ⟨_, last, gave⟩ := List.mem_filterMap.mp new
      rw [List.mem_singleton.mp last] at gave
      exact gives id gave
  roots := by rw [records.roots, List.filterMap_append]; simp [marksNone]
  once := records.once
  inside := records.inside

/-- A package that is accepted is added behind the others, and nothing that was there moves. -/
theorem records_accepted (records : Records g events) {p : Package}
    (free : p.isExternalTest = true ∨ g.containsPath p.path = false) :
    Records (g.append p) (events ++ [.insert p (some g.packages.length)]) := by
  have longer : (g.append p).packages.length = g.packages.length + 1 := List.length_append
  constructor
  case packages =>
    have behind : (g.append p).packages = g.packages ++ [p] := rfl
    rw [behind, records.packages, List.filterMap_append]
    rfl
  case indexed => exact indexed_append records.indexed free
  case placed =>
    intro q id member
    refine getElem?_concat_iff.mpr ?_
    rcases List.mem_append.mp member with old | new
    · exact Or.inl (records.placed q id old)
    · cases List.mem_singleton.mp new
      exact Or.inr ⟨rfl, rfl⟩
  case refused =>
    intro q member
    exact records.refused q (by simpa using member)
  case given =>
    intro id member
    rw [longer]
    rw [List.filterMap_append] at member
    rcases List.mem_append.mp member with old | new
    · exact Nat.lt_succ_of_lt (records.given id old)
    · cases List.mem_singleton.mp new
      exact Nat.lt_succ_self _
  case roots =>
    have same : (g.append p).roots = g.roots := rfl
    rw [same, records.roots, List.filterMap_append]
    simp [Event.marked?]
  case once => exact records.once
  case inside =>
    intro id root
    rw [longer]
    exact Nat.lt_succ_of_lt (records.inside id root)

/-- A mark that is new goes behind the others. -/
theorem eraseDups_concat (ids : List PackageId) (id : PackageId) :
    (ids ++ [id]).eraseDups = if id ∈ ids then ids.eraseDups else ids.eraseDups ++ [id] := by
  rw [List.eraseDups_append]
  by_cases old : id ∈ ids <;> simp [List.removeAll, List.eraseDups_cons, old]

/-- A position that was given out can be marked. -/
theorem records_addRoot (records : Records g events) {id : PackageId}
    (given : id ∈ events.filterMap (·.given?)) :
    Records (g.addRoot id) (events ++ [Event.addRoot id]) := by
  constructor
  case packages =>
    rw [addRoot_packages, records.packages, List.filterMap_append]
    simp [Event.added?]
  case indexed => exact indexed_addRoot records.indexed id
  case placed =>
    intro p i member
    rw [addRoot_packages]
    exact records.placed p i (by simpa using member)
  case refused =>
    intro p member
    exact records.refused p (by simpa using member)
  case given =>
    rw [addRoot_packages, List.filterMap_append]
    simpa [Event.given?] using records.given
  case roots =>
    have marked : (events ++ [Event.addRoot id]).filterMap (·.marked?) =
        events.filterMap (·.marked?) ++ [id] := List.filterMap_append
    have old : g.roots.contains id = true ↔ id ∈ events.filterMap (·.marked?) := by
      rw [List.contains_iff_mem, records.roots, List.mem_eraseDups]
    rw [marked, eraseDups_concat, ← records.roots]
    unfold PackageGraph.addRoot
    simp only [old]
    split <;> rfl
  case once => exact addRoot_nodup id records.once
  case inside =>
    intro i root
    rw [addRoot_packages]
    rcases (mem_addRoot g id i).mp root with old | rfl
    · exact records.inside i old
    · exact records.given i given

end Steps

/-- Every run is on record. -/
theorem run_records {events : List Event} (run : Run events g) : Records g events := by
  induction run with
  | start => exact records_start
  | @insert events g run p ih =>
    rcases insert_cases g p with ⟨plain, -, refused⟩ | ⟨free, accepted⟩
    · rw [refused]
      refine records_idle ih rfl rfl (fun id none => by cases none) fun q same => ?_
      cases same
      exact plain
    · rw [accepted]
      exact records_accepted ih free
  | @lookup events g run path ih =>
    refine records_idle ih rfl rfl (fun id found => ?_) fun q same => by cases same
    obtain ⟨p, at_id, -⟩ := (ih.indexed path id).mp found
    exact (List.getElem?_eq_some_iff.mp at_id).1
  | addRoot run id given ih => exact records_addRoot ih given

/-! ## The graph behind a history -/

/-- The identifiers of the roots stand in the order of the roots, and none is missing. -/
theorem parts_roots (inside : ∀ id ∈ g.roots, id < g.packages.length) :
    g.parts.2.map some = g.roots.map fun id => (g.get? id).map (·.id) := by
  have parts : g.parts.2 = g.roots.filterMap fun id => (g.get? id).map (·.id) := rfl
  rw [parts]
  clear parts
  generalize g.roots = roots at inside ⊢
  induction roots with
  | nil => rfl
  | cons id rest ih =>
    have stands := List.getElem?_eq_getElem (inside id (List.mem_cons_self ..))
    have later := ih fun i member => inside i (List.mem_cons_of_mem _ member)
    rw [List.filterMap_cons, List.map_cons, ← later]
    simp only [PackageGraph.get?, stands, Option.map_some, List.map_cons]

/-- After any run, a path is found at the only package that has it and is no external test; positions
that were given out for packages still lead to them; a package is turned away exactly if it is no
external test and its path is taken, which changes nothing; roots stand in the order in which they
were first marked; and what comes out is all that was added, in order, with the identifiers of the
roots. -/
theorem run_keeps_accounts {events : List Event} (run : Run events g) :
    (∀ (path : String) (i : Nat), g.lookup path = some i ↔
      (∃ p, g.get? i = some p ∧ p.isExternalTest = false ∧ p.path = path) ∧
        ∀ (j : Nat) q, g.get? j = some q → q.isExternalTest = false → q.path = path → j = i) ∧
    (∀ path, g.containsPath path = true ↔ ∃ i, g.lookup path = some i) ∧
    PathsDiffer g.packages ∧
    (∀ p id, .insert p (some id) ∈ events → g.get? id = some p) ∧
    (∀ p, ((g.insert p).2 = none ↔ p.isExternalTest = false ∧ g.containsPath p.path = true) ∧
      ((g.insert p).2 = none → (g.insert p).1 = g)) ∧
    (∀ p answer, .insert p answer ∈ events → p.isExternalTest = true →
      ∃ id, answer = some id ∧ g.get? id = some p) ∧
    g.roots = (events.filterMap (·.marked?)).eraseDups ∧ g.roots.Nodup ∧
    g.parts.1 = events.filterMap (·.added?) ∧
    g.parts.2.map some = g.roots.map fun id => (g.get? id).map (·.id) := by
  have records := run_records run
  have differ := indexed_pathsDiffer records.indexed
  refine ⟨fun path i => ?_, fun path => Option.isSome_iff_exists, differ, records.placed,
    fun p => ?_, fun p answer member separate => ?_, records.roots, records.once, records.packages,
    parts_roots records.inside⟩
  · rw [records.indexed path i]
    refine ⟨fun stands => ⟨stands, fun j q at_j plain same => ?_⟩, And.left⟩
    obtain ⟨p, at_i, other, path⟩ := stands
    exact position_unique differ at_j at_i plain other (same.trans path.symm)
  · rcases insert_cases g p with ⟨plain, taken, refused⟩ | ⟨free, accepted⟩
    · simp [refused, plain, taken]
    · have kept : ¬ (p.isExternalTest = false ∧ g.containsPath p.path = true) := by
        rintro ⟨plain, taken⟩
        simp [plain, taken] at free
      simp [accepted, kept]
  · cases answer with
    | some id => exact ⟨id, rfl, records.placed p id member⟩
    | none =>
      rw [records.refused p member] at separate
      cases separate

/-- A module "a", a library package of the same path, the external tests of "a" and a module that has
their identifier for its path. -/
def sampleCalls : List Event :=
  [.insert (.new "a" .workspace) (some 0), .insert (.new "a" .library) none,
    .insert (.new "a_test" .externalTest) (some 1), .lookup "a_test" none,
    .insert (.new "a_test" .workspace) (some 2), .lookup "a_test" (some 2), .addRoot 2, .addRoot 0,
    .addRoot 2]

def sampleGraph : PackageGraph where
  packages := [.new "a" .workspace, .new "a_test" .externalTest, .new "a_test" .workspace]
  byPath := .ofList [("a", 0), ("a_test", 2)]
  roots := [2, 0]

theorem sample_run : Run sampleCalls sampleGraph := by
  have packages := ((((Run.start.insert (.new "a" .workspace)).insert (.new "a" .library)).insert
    (.new "a_test" .externalTest)).lookup "a_test").insert (.new "a_test" .workspace)
  have marks := (((packages.lookup "a_test").addRoot 2 ?_).addRoot 0 ?_).addRoot 2 ?_
  · exact marks
  all_goals decide +kernel

theorem sample_keeps_accounts : Run sampleCalls sampleGraph ∧
    sampleGraph.roots = (sampleCalls.filterMap (·.marked?)).eraseDups :=
  ⟨sample_run, (run_keeps_accounts sample_run).2.2.2.2.2.2.1⟩

end PackageLoader.GraphRuns
