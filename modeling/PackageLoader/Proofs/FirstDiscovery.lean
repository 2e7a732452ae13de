import PackageLoader.Proofs.GraphRuns
import PackageLoader.Proofs.Offers

/-! What a query finds is decided by a list of candidates that no graph takes part in. Discovery keeps
the first candidate of each path with its external tests and marks those that were asked for. The
graph is followed one candidate at a time (`Reflects`), and the insertions of library, patterns and
examples are shown to be such steps. -/
namespace PackageLoader.FirstDiscovery
open GraphRuns Linking Offers

/-! ## One candidate after the other -/

/-- The graph that the given candidates lead to. Roots are positions, and a `builtin` pattern is
taken to have been seen only once something holds the builtin path. -/
structure Reflects (g : PackageGraph) (cs : List Candidate) (builtinAsked : Bool) : Prop where
  packages : g.packages = (firsts cs).flatMap (·.packages)
  indexed : Indexed g
  once : g.roots.Nodup
  marked : ∀ i : Nat, i ∈ g.roots ↔
    ∃ e, (owned (firsts cs))[i]? = some e ∧ e.1.answers builtinAsked = true
  held : builtinAsked = true → ∃ c ∈ cs, c.path = builtinPath

/-- Considers a candidate: a free path is taken, and a taken one is not contested. -/
def consider (g : PackageGraph) (c : Candidate) : PackageGraph :=
  if g.containsPath c.path then g else c.packages.foldl (·.insertFor c.asked) g

section Considering

variable {g : PackageGraph} {cs : List Candidate} {asks : Bool}

theorem owned_length (reflects : Reflects g cs asks) :
    (owned (firsts cs)).length = g.packages.length := by
  rw [reflects.packages, ← owned_packages, List.length_map]

/-- What is owned stands where the graph has it. -/
theorem owned_at (reflects : Reflects g cs asks)
    {i : Nat} {e : Candidate × Package} (at_i : (owned (firsts cs))[i]? = some e) :
    e.1 ∈ cs ∧ e.2 ∈ e.1.packages ∧ g.packages[i]? = some e.2 := by
  obtain ⟨kept, own⟩ := mem_owned (List.mem_of_getElem? at_i)
  refine ⟨mem_of_mem_firsts kept, own, ?_⟩
  rw [reflects.packages, ← owned_packages, List.getElem?_map, at_i]
  rfl

/-- What stands in the graph is owned by a candidate. -/
theorem exists_owned (reflects : Reflects g cs asks) {i : Nat} {p : Package}
    (at_i : g.packages[i]? = some p) : ∃ c, (owned (firsts cs))[i]? = some (c, p) := by
  rw [reflects.packages, ← owned_packages, List.getElem?_map, Option.map_eq_some_iff] at at_i
  obtain ⟨⟨c, p⟩, found, rfl⟩ := at_i
  exact ⟨c, found⟩

theorem root_lt_length (reflects : Reflects g cs asks) {i : Nat} (root : i ∈ g.roots) :
    i < g.packages.length := by
  obtain ⟨e, at_i, -⟩ := (reflects.marked i).mp root
  obtain ⟨inside, -⟩ := List.getElem?_eq_some_iff.mp at_i
  rwa [← owned_length reflects]

/-- A path is taken exactly if an earlier candidate lays claim to it. -/
theorem containsPath_iff (reflects : Reflects g cs asks) (path : String) :
    g.containsPath path = true ↔ ∃ c ∈ cs, c.path = path := by
  rw [containsPath_iff_mem reflects.indexed, reflects.packages]
  simp only [List.mem_flatMap]
  constructor
  · rintro ⟨p, ⟨c, kept, member⟩, plain, same⟩
    rw [plain_of_mem_packages member plain] at same
    exact ⟨c, mem_of_mem_firsts kept, same⟩
  · rintro ⟨c, member, same⟩
    obtain ⟨first, kept, path⟩ := exists_first member
    exact ⟨first.package, ⟨first, kept, List.mem_cons_self ..⟩, first.plain, path.trans same⟩

/-- A package that is not turned away goes behind the others, and so does its mark. -/
theorem insertFor_free {p : Package} (answers : Bool)
    (free : p.isExternalTest = true ∨ g.containsPath p.path = false)
    (inside : ∀ i : Nat, i ∈ g.roots → i < g.packages.length) :
    g.insertFor answers p =
      { g.append p with roots := g.roots ++ if answers then [g.packages.length] else [] } := by
  have unmarked : g.packages.length ∉ g.roots := fun root => Nat.lt_irrefl _ (inside _ root)
  have accepted := insert_free free
  cases answers <;>
    simp [PackageGraph.insertFor, accepted, PackageGraph.addRoot, PackageGraph.append, unmarked]

theorem indexed_insertFor (indexed : Indexed g) (answers : Bool) (p : Package) :
    Indexed (g.insertFor answers p) := by
  have inserted := indexed_insert indexed p
  unfold PackageGraph.insertFor
  generalize g.insert p = result at inserted
  obtain ⟨later, answer⟩ := result
  cases answer with
  | none => exact inserted
  | some id => cases answers with
    | true => exact indexed_addRoot inserted id
    | false => exact inserted

theorem indexed_consider (indexed : Indexed g) (c : Candidate) : Indexed (consider g c) := by
  have all (ps : List Package) : Indexed (ps.foldl (·.insertFor c.asked) g) := by
    induction ps generalizing g with
    | nil => exact indexed
    | cons p rest ih => exact ih (indexed_insertFor indexed c.asked p)
  unfold consider
  split
  · exact indexed
  · exact all c.packages

/-- A candidate with a free path brings in all its packages, marked if it was asked for. -/
theorem consider_free {c : Candidate} (free : g.containsPath c.path = false)
    (inside : ∀ i : Nat, i ∈ g.roots → i < g.packages.length) :
    (consider g c).packages = g.packages ++ c.packages ∧
      (consider g c).roots = g.roots ++
        if c.asked then List.range' g.packages.length c.packages.length else [] := by
  have base := insertFor_free c.asked (Or.inr free) inside
  cases tests : c.tests? with
  | none =>
    simp only [consider, free, Candidate.packages, tests, Option.toList_none, List.foldl_cons,
      List.foldl_nil, base, Bool.false_eq_true, ↓reduceIte]
    exact ⟨rfl, rfl⟩
  | some x =>
    have separate := (c.separate x tests).1
    have longer : (g.append c.package).packages.length = g.packages.length + 1 :=
      List.length_append
    have next := insertFor_free (g := g.insertFor c.asked c.package) c.asked (Or.inl separate) (by
      rw [base, longer]
      intro i root
      rcases List.mem_append.mp root with old | new
      · exact Nat.lt_succ_of_lt (inside i old)
      · split at new
        · rw [List.mem_singleton.mp new]
          exact Nat.lt_succ_self _
        · cases new)
    simp only [consider, free, Candidate.packages, tests, Option.toList_some, List.foldl_cons,
      List.foldl_nil, Bool.false_eq_true, ↓reduceIte]
    rw [next, base, longer]
    refine ⟨by simp [PackageGraph.append], ?_⟩
    cases c.asked <;> simp [List.range'_succ]

/-- The marks of a candidate whose packages start at a position, if a pattern for the builtin package
does not come into it. -/
theorem mem_marks_iff {c : Candidate} (answers : c.answers asks = c.asked) (n i : Nat) :
    i ∈ (if c.asked then List.range' n c.packages.length else []) ↔
      n ≤ i ∧ ∃ e, (c.packages.map (c, ·))[i - n]? = some e ∧ e.1.answers asks = true := by
  constructor
  · intro marked
    split at marked
    · rename_i asked
      have bounds := List.mem_range'_1.mp marked
      have inside : i - n < c.packages.length := by omega
      exact ⟨bounds.1, (c, c.packages[i - n]), by simp [inside], answers.trans asked⟩
    · cases marked
  · rintro ⟨behind, e, at_i, flag⟩
    obtain ⟨inside, rfl⟩ := List.getElem?_eq_some_iff.mp at_i
    rw [List.getElem_map, answers] at flag
    rw [List.length_map] at inside
    rw [if_pos flag, List.mem_range'_1]
    omega

/-- A candidate whose path is free. -/
theorem reflects_free (reflects : Reflects g cs asks) {c : Candidate}
    (unclaimed : ¬ ∃ other ∈ cs, other.path = c.path) :
    Reflects (consider g c) (cs ++ [c]) asks := by
  have free : g.containsPath c.path = false := by
    rw [← Bool.not_eq_true, containsPath_iff reflects]
    exact unclaimed
  -- A `builtin` pattern that was seen before asks for another package than this one.
  have answers : c.answers asks = c.asked := by
    cases asks with
    | false => simp [Candidate.answers]
    | true =>
      obtain ⟨other, member, path⟩ := reflects.held rfl
      have different : c.path ≠ builtinPath := by
        intro same
        exact unclaimed ⟨other, member, path.trans same.symm⟩
      simp [Candidate.answers, different]
  have inside : ∀ i : Nat, i ∈ g.roots → i < g.packages.length := fun i => root_lt_length reflects
  have behind : firsts (cs ++ [c]) = firsts cs ++ [c] := by rw [firsts_concat, if_neg unclaimed]
  have more : owned (firsts cs ++ [c]) = owned (firsts cs) ++ c.packages.map (c, ·) := by
    simp [owned, List.flatMap_append]
  obtain ⟨packages, roots⟩ := consider_free free inside
  constructor
  case packages =>
    rw [packages, behind, List.flatMap_append, ← reflects.packages]
    simp
  case indexed => exact indexed_consider reflects.indexed c
  case once =>
    rw [roots]
    apply List.nodup_append.mpr
    refine ⟨reflects.once, ?_, ?_⟩
    · split
      · exact List.nodup_range'
      · exact List.nodup_nil
    · rintro i old _ new rfl
      exact absurd ((mem_marks_iff answers _ i).mp new).1 (Nat.not_le.mpr (inside i old))
  case marked =>
    intro i
    rw [roots, behind, more, List.mem_append, reflects.marked, mem_marks_iff answers, List.getElem?_append,
      owned_length reflects]
    by_cases old : i < g.packages.length
    · simp [old, Nat.not_le.mpr old]
    · have beyond : (owned (firsts cs))[i]? = none := by
        apply List.getElem?_eq_none
        rw [owned_length reflects]
        omega
      simp [beyond, old, Nat.not_lt.mp old]
  case held =>
    intro asked
    obtain ⟨other, member, path⟩ := reflects.held asked
    exact ⟨other, List.mem_append_left _ member, path⟩

/-- Considering one more candidate. -/
theorem reflects_consider (reflects : Reflects g cs asks) (c : Candidate) :
    Reflects (consider g c) (cs ++ [c]) asks := by
  by_cases taken : ∃ other ∈ cs, other.path = c.path
  · have kept : consider g c = g := by
      simp [consider, (containsPath_iff reflects c.path).mpr taken]
    have same : firsts (cs ++ [c]) = firsts cs := by rw [firsts_concat, if_pos taken]
    rw [kept]
    refine ⟨?_, reflects.indexed, reflects.once, ?_, fun asked => ?_⟩
    · rw [same]
      exact reflects.packages
    · rw [same]
      exact reflects.marked
    · obtain ⟨other, member, path⟩ := reflects.held asked
      exact ⟨other, List.mem_append_left _ member, path⟩
  · exact reflects_free reflects taken

/-- Packages that are not external tests have different paths. -/
theorem plain_paths_differ (cs : List Candidate) :
    PathsDiffer ((firsts cs).flatMap (·.packages)) := by
  refine List.pairwise_flatMap.mpr ⟨fun c _ => ?_, ?_⟩
  · refine List.pairwise_cons.mpr ⟨fun q tests _ plain => ?_, ?_⟩
    · rw [(c.separate q (Option.mem_toList.mp tests)).1] at plain
      cases plain
    · cases c.tests? <;> simp
  · refine (List.pairwise_map.mp (firsts_paths_nodup cs)).imp ?_
    intro c d different p first q second plain other same
    rw [plain_of_mem_packages first plain, plain_of_mem_packages second other] at same
    exact different same

/-- Marks the package that holds the builtin path. -/
def markBuiltin (g : PackageGraph) : PackageGraph :=
  match g.lookup builtinPath with
  | some id => g.addRoot id
  | none => g

theorem addBuiltin_eq_mark (g : PackageGraph) (dir : Path) :
    g.addBuiltin dir = markBuiltin (consider g (builtinCandidate dir)) := by
  cases taken : g.containsPath builtinPath with
  | true =>
    have kept : consider g (builtinCandidate dir) = g := if_pos taken
    have refused : g.insert (builtinPackage dir) = (g, none) :=
      if_pos (Bool.and_eq_true_iff.mpr ⟨rfl, taken⟩)
    rw [kept, PackageGraph.addBuiltin, refused]
    rfl
  | false =>
    have accepted : g.insert (builtinPackage dir) =
        (g.append (builtinPackage dir), some g.packages.length) := insert_free (Or.inr taken)
    have alone : consider g (builtinCandidate dir) =
        (g.append (builtinPackage dir)).addRoot g.packages.length := by
      refine (if_neg (Bool.eq_false_iff.mp taken)).trans ?_
      simp [Candidate.packages, builtinCandidate, PackageGraph.insertFor, accepted]
    have found : ((g.append (builtinPackage dir)).addRoot g.packages.length).lookup builtinPath =
        some g.packages.length := by
      rw [PackageGraph.lookup, addRoot_byPath]
      exact (lookup_append g (builtinPackage dir) builtinPath).trans (if_pos ⟨rfl, rfl⟩)
    rw [alone, PackageGraph.addBuiltin, accepted, markBuiltin, found]
    exact (addRoot_root ((mem_addRoot _ _ _).mpr (Or.inr rfl))).symm

/-- Once something holds the builtin path, a `builtin` pattern marks it. Candidates with external
tests are marked as a whole or not at all, so they have to be marked already. -/
theorem reflects_markBuiltin (reflects : Reflects g cs asks)
    (tested : ∀ c ∈ cs, c.tests?.isSome → c.asked = true)
    (held : ∃ c ∈ cs, c.path = builtinPath) : Reflects (markBuiltin g) cs true := by
  have taken := (containsPath_iff reflects builtinPath).mpr held
  obtain ⟨k, found⟩ := Option.isSome_iff_exists.mp taken
  have marks : markBuiltin g = g.addRoot k := by
    rw [markBuiltin, show g.lookup builtinPath = some k from found]
  obtain ⟨holder, at_k, holds⟩ := (reflects.indexed builtinPath k).mp found
  obtain ⟨inside, -⟩ := List.getElem?_eq_some_iff.mp at_k
  have differ := plain_paths_differ cs
  rw [← reflects.packages] at differ
  -- What stands at the marked position holds the builtin path, and nothing else that is plain does.
  have marked (i : Nat) : (∃ e, (owned (firsts cs))[i]? = some e ∧ e.1.answers true = true) ↔
      i ∈ g.roots ∨ i = k := by
    rw [reflects.marked]
    constructor
    · rintro ⟨e, at_i, flag⟩
      obtain ⟨member, own, stands⟩ := owned_at reflects at_i
      by_cases asked : e.1.asked = true
      · exact Or.inl ⟨e, at_i, by simp [Candidate.answers, asked]⟩
      · have path : e.1.path = builtinPath := by simpa [Candidate.answers, asked] using flag
        have alone : e.1.tests? = none := by
          cases tests : e.1.tests? with
          | none => rfl
          | some x => exact absurd (tested e.1 member (by simp [tests])) asked
        have same : e.2 = e.1.package := by simpa [Candidate.packages, alone] using own
        exact Or.inr (position_unique differ stands at_k (same ▸ e.1.plain) holds.1
          ((same ▸ path : e.2.path = builtinPath).trans holds.2.symm))
    · rintro (⟨e, at_i, flag⟩ | rfl)
      · refine ⟨e, at_i, ?_⟩
        simp only [Candidate.answers, Bool.or_eq_true] at flag ⊢
        rcases flag with asked | path
        · exact Or.inl asked
        · exact Or.inr (by simp_all)
      · have same_length := owned_length reflects
        have at_i : (owned (firsts cs))[i]? = some (owned (firsts cs))[i] :=
          List.getElem?_eq_getElem (same_length ▸ inside)
        obtain ⟨-, own, stands⟩ := owned_at reflects at_i
        rw [at_k, Option.some.injEq] at stands
        refine ⟨_, at_i, ?_⟩
        rw [← stands] at own
        have path := plain_of_mem_packages own holds.1 ▸ holds.2
        simp [Candidate.answers, Candidate.path, path]
  rw [marks]
  exact ⟨(addRoot_packages g k).trans reflects.packages, indexed_addRoot reflects.indexed k,
    addRoot_nodup k reflects.once,
    fun i => (mem_addRoot g k i).trans (marked i).symm, fun _ => held⟩

end Considering

/-! ## Discovery -/

/-- A run of two steps succeeds exactly if both do. -/
theorem bind_eq_ok_iff {ε α β : Type} {x : Except ε α} {next : α → Except ε β} {b : β} :
    x >>= next = .ok b ↔ ∃ a, x = .ok a ∧ next a = .ok b := by
  cases x <;> simp [bind, Except.bind]

/-- A run whose result passes a test succeeds with such a result. -/
theorem exists_ok_of_any {ε α : Type} {x : Except ε α} {Holds : α → Prop} [DecidablePred Holds]
    (passes : x.toOption.any (fun a => decide (Holds a)) = true) : ∃ a, x = .ok a ∧ Holds a := by
  cases x with
  | error cause => cases passes
  | ok a => exact ⟨a, rfl, of_decide_eq_true passes⟩

section Discovering

variable {disk : Disk} {fs : FileSystem} {settings : Settings} {g after : PackageGraph}
  {cs : List Candidate} {asks : Bool}

/-- The graph that considering the given candidates in order leads to. -/
theorem reflects_considered (reflects : Reflects g cs asks) (more : List Candidate) :
    Reflects (more.foldl consider g) (cs ++ more) asks := by
  induction more generalizing g cs with
  | nil => simpa using reflects
  | cons c rest ih =>
    have step := ih (reflects_consider reflects c)
    rwa [List.append_assoc, List.singleton_append] at step

theorem consider_module (g : PackageGraph) (fs : FileSystem) (asked : Bool) (listed : Package)
    (plain : listed.isExternalTest = false) :
    consider g (moduleCandidate fs asked listed plain) =
      if g.containsPath listed.path then g
      else (if (listed.resolveWithTests fs).2.hasFiles
        then [(listed.resolveWithTests fs).1, (listed.resolveWithTests fs).2]
        else [(listed.resolveWithTests fs).1]).foldl (·.insertFor asked) g := by
  unfold consider
  refine if_congr Iff.rfl rfl ?_
  cases files : (listed.resolveWithTests fs).2.hasFiles <;>
    simp [moduleCandidate, Candidate.packages, files, Option.filter]

/-- Loading a module directory is considering what it offers, unless its descriptor is at fault and
a file was asked for. -/
theorem loadModule_considers {purpose : Purpose} {dir : Path}
    (ran : g.loadModule disk fs purpose dir = .ok after) :
    after = (directoryCandidate? disk fs (purpose ≠ .examples) dir).elim g (consider g) := by
  unfold PackageGraph.loadModule at ran
  unfold directoryCandidate?
  cases read : disk.moduleOf dir with
  | error cause =>
    simp only [read] at ran
    split at ran <;> cases ran
    rfl
  | ok found =>
    obtain ⟨file, d⟩ := found
    simp only [read, Except.ok.injEq] at ran
    rw [← ran, PackageGraph.addModule, FileSystem.modulePackages]
    have path := @listed_package_fields fs dir file d
    simp only
    generalize listed_package_plain fs dir file d = plain
    revert path plain
    generalize fs.listedPackage? dir file d = offered
    intro path plain
    cases offered with
    | none => simp
    | some listed =>
      rw [Option.pmap_some, Option.elim_some, consider_module, (path rfl).2.1]

/-- Walking a tree is considering what its modules offer, in order. -/
theorem walk_considers {purpose : Purpose} {raw : String} {dir : Path}
    (ran : g.walk disk fs purpose raw dir = .ok after) :
    after = (treeCandidates disk fs (purpose ≠ .examples) dir).foldl consider g := by
  unfold PackageGraph.walk at ran
  unfold treeCandidates
  cases listed : disk.moduleDirs dir with
  | error cause =>
    simp only [listed] at ran
    split at ran <;> cases ran
    rfl
  | ok dirs =>
    simp only [listed] at ran ⊢
    clear listed
    induction dirs generalizing g with
    | nil =>
      cases ran
      rfl
    | cons head rest ih =>
      rw [List.foldlM_cons] at ran
      obtain ⟨middle, loaded, later⟩ := bind_eq_ok_iff.mp ran
      rw [ih later, loadModule_considers loaded, List.filterMap_cons]
      cases directoryCandidate? disk fs (purpose ≠ .examples) head <;> rfl

theorem consider_library (g : PackageGraph) (p : Package) (plain : p.isExternalTest = false) :
    consider g (libraryCandidate p plain) = (g.insert p).1 := by
  unfold consider PackageGraph.insert
  cases taken : g.containsPath p.path <;>
    simp [libraryCandidate, Candidate.path, Candidate.packages, PackageGraph.insertFor,
      PackageGraph.insert, taken, plain]

theorem insertAll_considers (g : PackageGraph) (ps : List Package)
    (plain : ∀ p ∈ ps, p.isExternalTest = false) :
    (g.insertAll ps).1 = (ps.pmap libraryCandidate plain).foldl consider g := by
  induction ps using List.reverseRecOn with
  | nil => rfl
  | append_singleton ps p ih =>
    rw [insertAll_last, ih (fun q member => plain q (List.mem_append_left _ member)),
      List.pmap_append, List.foldl_append]
    exact (consider_library _ p _).symm

/-- Adding the library is considering its packages in order. -/
theorem loadLibrary_considers (disk : Disk) (fs : FileSystem) (settings : Settings)
    (g : PackageGraph) :
    g.loadLibrary disk fs settings = (libraryCandidates disk fs settings).foldl consider g := by
  unfold PackageGraph.loadLibrary libraryCandidates
  cases settings.root?.map LibraryRoots.within with
  | none => rfl
  | some roots =>
    simp only
    split
    · exact insertAll_considers g _ (library_packages_plain disk fs roots)
    · rfl

theorem treeCandidates_asked {asked : Bool} {dir : Path} {c : Candidate}
    (member : c ∈ treeCandidates disk fs asked dir) : c.asked = asked := by
  obtain ⟨_, _, _, _, _, -, -, rfl⟩ := mem_treeCandidates member
  rfl

/-- A graph in the middle of the patterns: whatever has external tests was asked for. -/
structure Underway (g : PackageGraph) (cs : List Candidate) (builtinAsked : Bool) : Prop where
  reflects : Reflects g cs builtinAsked
  tested : ∀ c ∈ cs, c.tests?.isSome → c.asked = true

/-- A tree that was asked for keeps the graph underway. -/
theorem underway_tree {purpose : Purpose} {raw : String} {dir : Path}
    (underway : Underway g cs asks) (wanted : purpose ≠ .examples)
    (ran : g.walk disk fs purpose raw dir = .ok after) :
    Underway after (cs ++ treeCandidates disk fs true dir) asks := by
  have considers := walk_considers ran
  rw [decide_eq_true wanted] at considers
  refine ⟨considers ▸ reflects_considered underway.reflects _, fun c member tests => ?_⟩
  rcases List.mem_append.mp member with old | new
  · exact underway.tested c old tests
  · exact treeCandidates_asked new

/-- One pattern. -/
theorem underway_pattern {raw : String} (underway : Underway g cs asks)
    (ran : g.loadPattern disk fs settings raw = .ok after) :
    Underway after (cs ++ patternCandidates disk fs settings raw) (asks || raw = builtinPath) := by
  unfold PackageGraph.loadPattern at ran
  unfold patternCandidates
  cases read : Pattern.read raw settings.workingDir with
  | builtin =>
    simp only [read, Except.ok.injEq] at ran ⊢
    have tested : ∀ c ∈ cs ++ [builtinCandidate settings.builtinDir],
        c.tests?.isSome → c.asked = true := by
      intro c member tests
      rcases List.mem_append.mp member with old | new
      · exact underway.tested c old tests
      · rw [List.mem_singleton.mp new]
        rfl
    rw [(read_eq_builtin_iff raw settings.workingDir).mp read, ← ran, addBuiltin_eq_mark]
    simp only [decide_true, Bool.or_true]
    exact ⟨reflects_markBuiltin (reflects_consider underway.reflects _) tested
      ⟨builtinCandidate settings.builtinDir, by simp, rfl⟩, tested⟩
  | dir dir =>
    have other : raw ≠ builtinPath :=
      mt (read_eq_builtin_iff raw settings.workingDir).mpr (by simp [read])
    simp only [read] at ran ⊢
    simpa [other] using underway_tree underway (by decide) ran
  | file file =>
    have other : raw ≠ builtinPath :=
      mt (read_eq_builtin_iff raw settings.workingDir).mpr (by simp [read])
    simp only [read] at ran ⊢
    simpa [other] using underway_tree underway (by decide) ran

/-- All patterns in order. -/
theorem underway_patterns {patterns : List String} (underway : Underway g cs asks)
    (ran : patterns.foldlM (PackageGraph.loadPattern disk fs settings) g = .ok after) :
    Underway after (cs ++ patterns.flatMap (patternCandidates disk fs settings))
      (asks || patterns.contains builtinPath) := by
  induction patterns generalizing g cs asks with
  | nil =>
    cases ran
    simpa using underway
  | cons raw rest ih =>
    rw [List.foldlM_cons] at ran
    obtain ⟨middle, loaded, later⟩ := bind_eq_ok_iff.mp ran
    have done := ih (underway_pattern underway loaded) later
    have asked : (asks || (raw :: rest).contains builtinPath) =
        (asks || raw = builtinPath || rest.contains builtinPath) := by
      rw [List.contains_cons, Bool.or_assoc]
      congr 2
      exact Bool.eq_iff_iff.mpr (by simpa only [beq_iff_eq, decide_eq_true_eq] using eq_comm)
    rwa [asked, List.flatMap_cons, ← List.append_assoc]

/-- The examples at the end. -/
theorem reflects_examples (reflects : Reflects g cs asks)
    (ran : g.loadExamples disk fs settings = .ok after) :
    Reflects after (cs ++ exampleCandidates disk fs settings) asks := by
  unfold PackageGraph.loadExamples at ran
  unfold exampleCandidates
  cases place : settings.root?.map (·.child "examples") with
  | none =>
    simp only [place] at ran ⊢
    cases ran
    simpa using reflects
  | some dir =>
    simp only [place] at ran ⊢
    split at ran
    · rename_i wanted
      rw [if_pos wanted, walk_considers ran]
      exact reflects_considered reflects _
    · rename_i unwanted
      cases ran
      rw [if_neg unwanted]
      simpa using reflects

/-- The graph at the end of discovery. -/
theorem discover_reflects {overlay : Overlay} {patterns : List String}
    (ran : discover disk settings overlay patterns = .ok g) :
    Reflects g (candidates disk settings overlay patterns) (patterns.contains builtinPath) := by
  have start : Reflects {} [] false :=
    ⟨rfl, indexed_empty, List.nodup_nil, fun i => by simp [firsts, owned],
      fun asked => by cases asked⟩
  unfold discover at ran
  simp only [loadLibrary_considers] at ran
  have library := reflects_considered start
    (libraryCandidates disk (overlay.inFrontOf disk.fileSystem) settings)
  have untested : ∀ c ∈ libraryCandidates disk (overlay.inFrontOf disk.fileSystem) settings,
      c.tests?.isSome → c.asked = true := by
    intro c member tests
    unfold libraryCandidates at member
    split at member
    · split at member
      · obtain ⟨p, plain, -, rfl⟩ := List.mem_pmap.mp member
        cases tests
      · cases member
    · cases member
  obtain ⟨middle, patternsRan, examplesRan⟩ := bind_eq_ok_iff.mp ran
  exact reflects_examples (underway_patterns ⟨library, untested⟩ patternsRan).reflects examplesRan

/-- A response is the linked graph at the end of discovery with the identifiers of its roots. -/
theorem load_eq_discover {overlay : Overlay} {patterns : List String} {r : Response}
    (ran : load disk settings overlay patterns = .ok r) :
    ∃ g, discover disk settings overlay patterns = .ok g ∧
      r.packages = linkPackages g.packages ∧ r.roots = g.parts.2 := by
  unfold load at ran
  obtain ⟨g, found, answered⟩ := bind_eq_ok_iff.mp ran
  cases answered
  exact ⟨g, found, rfl, rfl⟩

end Discovering

theorem plain_packages (cs : List Candidate) :
    (cs.flatMap (·.packages)).filter (!·.isExternalTest) = cs.map (·.package) := by
  induction cs with
  | nil => rfl
  | cons c rest ih =>
    have separate : c.tests?.toList.filter (!·.isExternalTest) = [] :=
      List.filter_eq_nil_iff.mpr fun p member => by
        simp [(c.separate p (Option.mem_toList.mp member)).1]
    have own : c.packages.filter (!·.isExternalTest) = [c.package] := by
      simp [Candidate.packages, c.plain, separate]
    rw [List.flatMap_cons, List.filter_append, own, ih]
    rfl

/-- The response is the first candidate of every path, in order and each with its external tests
right behind it. Its roots are the packages of the candidates that were asked for, or that hold the
builtin path under a `builtin` pattern. -/
theorem load_keeps_first_candidates {disk : Disk} {settings : Settings} {overlay : Overlay}
    {patterns : List String} {r : Response} (ran : load disk settings overlay patterns = .ok r) :
    let winners := firsts (candidates disk settings overlay patterns)
    let found := winners.flatMap (·.packages)
    r.packages = linkPackages found ∧
      r.packages.filter (!·.isExternalTest) =
        winners.map (fun c => c.package.link (importTargets found)) ∧
      ∃ marks : List Nat, marks.Nodup ∧ (∀ i ∈ marks, i < r.packages.length) ∧
        r.roots = marks.filterMap (fun i => (r.packages[i]?).map (·.id)) ∧
        ∀ i c p, (owned winners)[i]? = some (c, p) →
          (i ∈ marks ↔ c.asked = true ∨ c.path = builtinPath ∧ builtinPath ∈ patterns) := by
  intro winners found
  obtain ⟨g, discovered, packages, roots⟩ := load_eq_discover ran
  have reflects := discover_reflects discovered
  have found_eq : g.packages = found := reflects.packages
  rw [found_eq] at packages
  refine ⟨packages, ?_, g.roots, reflects.once, ?_, ?_, ?_⟩
  · rw [packages, linkPackages, List.filter_map]
    have kept : (found.filter ((!·.isExternalTest) ∘ (·.link (importTargets found)))) =
        winners.map (·.package) := by
      rw [← plain_packages winners]
      exact List.filter_congr fun p _ => by simp
    rw [kept, List.map_map]
    rfl
  · intro i root
    rw [packages, linkPackages, List.length_map, ← found_eq]
    exact root_lt_length reflects root
  · rw [roots, packages, ← found_eq]
    simp [PackageGraph.parts, PackageGraph.get?, linkPackages, Function.comp_def]
  · intro i c p at_i
    rw [reflects.marked]
    constructor
    · rintro ⟨e, at_e, flag⟩
      rw [at_i] at at_e
      cases at_e
      simpa [Candidate.answers, and_comm] using flag
    · intro flag
      exact ⟨(c, p), at_i, by simpa [Candidate.answers, and_comm] using flag⟩

/-- A module with external tests and an import that nothing provides, and below it another one that
lays claim to the same path. -/
def sampleDisk : Disk where
  root := [
    ("a.gno", .file (Text.utf8Bytes "package a\nimport \"a\"\nimport \"x\"\n")),
    ("a_test.gno", .file (Text.utf8Bytes "package a_test\n")),
    ("b", .directory [("b.gno", .file []), ("gno.mod", .file (Text.utf8Bytes "module a\n"))]),
    ("gno.mod", .file (Text.utf8Bytes "module a\n"))]
  ordered := .directory (by decide) (by
    simp only [List.mem_cons, List.not_mem_nil, or_false, forall_eq_or_imp, forall_eq]
    exact ⟨.file _, .file _, .directory (by decide) (by simp [Node.Ordered.file]), .file _⟩)
  workingDir := []

def sampleSettings : Settings where
  builtinDir := ⟨"/builtin"⟩
  workingDir := ⟨"/"⟩
  architecture := "amd64"

theorem sample_response : ∃ r, load sampleDisk sampleSettings .empty ["/", "builtin"] = .ok r ∧
    r.packages.map (·.id) = ["a", "a_test", "builtin"] ∧
    r.packages.map (·.origin) = [.workspace, .externalTest, .builtin] ∧
    r.packages.map (·.imports.entries) = [[("a", some 0)], [], []] ∧
    r.roots = ["a", "a_test", "builtin"] :=
  exists_ok_of_any (by decide +kernel)

/-- The second claim to the path comes to nothing. -/
theorem sample_keeps_first_candidates :
    ∃ r, load sampleDisk sampleSettings .empty ["/", "builtin"] = .ok r ∧
      r.roots = ["a", "a_test", "builtin"] ∧
      r.packages = linkPackages
        ((firsts (candidates sampleDisk sampleSettings .empty ["/", "builtin"])).flatMap
          (·.packages)) := by
  obtain ⟨r, ran, -, -, -, roots⟩ := sample_response
  exact ⟨r, ran, roots, (load_keeps_first_candidates ran).1⟩

end PackageLoader.FirstDiscovery
