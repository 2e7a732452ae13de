import Mathlib.Data.List.Nodup
import PackageLoader.Proofs.LaterDiscovery
import PackageLoader.Proofs.WireIdentity

/-! The order of patterns decides which of two claims to a path comes first and nothing else. Where no
path is claimed from two directories, orders lead to the same candidates, the positions of one
response are those of the other under a renaming, and edges and roots follow it. Directories are told
apart by how they are spelled: one that is walked under two spellings is two. -/
namespace PackageLoader.PatternOrder
open FirstDiscovery LaterDiscovery Linking Offers PatternRuns TableLaws WireIdentity

/-! ## First candidates -/

/-- A candidate is first among all if it is first on its own side and its path is free there. -/
theorem mem_firsts_append {cs ds : List Candidate} {c : Candidate} : c ∈ firsts (cs ++ ds) ↔
    c ∈ firsts cs ∨ c ∈ firsts ds ∧ ∀ other ∈ cs, other.path ≠ c.path := by
  induction ds using List.reverseRecOn with
  | nil => simp [firsts]
  | append_singleton ds d ih =>
    rw [← List.append_assoc, firsts_concat, firsts_concat]
    by_cases later : ∃ other ∈ ds, other.path = d.path
    · have taken : ∃ other ∈ cs ++ ds, other.path = d.path := by
        obtain ⟨other, member, same⟩ := later
        exact ⟨other, List.mem_append_right _ member, same⟩
      rw [if_pos later, if_pos taken, ih]
    · rw [if_neg later]
      by_cases earlier : ∃ other ∈ cs, other.path = d.path
      · obtain ⟨other, member, same⟩ := earlier
        rw [if_pos ⟨other, List.mem_append_left _ member, same⟩, ih, List.mem_append,
          List.mem_singleton]
        constructor
        · exact Or.imp_right fun kept => ⟨Or.inl kept.1, kept.2⟩
        · rintro (kept | ⟨kept | rfl, free⟩)
          · exact Or.inl kept
          · exact Or.inr ⟨kept, free⟩
          · exact absurd same (free other member)
      · have free : ¬ ∃ other ∈ cs ++ ds, other.path = d.path := by
          rintro ⟨other, member, same⟩
          rcases List.mem_append.mp member with first | second
          · exact earlier ⟨other, first, same⟩
          · exact later ⟨other, second, same⟩
        rw [if_neg free, List.mem_append, List.mem_append, List.mem_singleton, ih]
        constructor
        · rintro ((kept | ⟨kept, free⟩) | rfl)
          · exact Or.inl kept
          · exact Or.inr ⟨Or.inl kept, free⟩
          · exact Or.inr ⟨Or.inr rfl, fun other member same => earlier ⟨other, member, same⟩⟩
        · rintro (kept | ⟨kept | rfl, free⟩)
          · exact Or.inl (Or.inl kept)
          · exact Or.inl (Or.inr ⟨kept, free⟩)
          · exact Or.inr rfl

/-- Where candidates for one path are one candidate, all of them are kept. -/
theorem mem_firsts_of_agree {cs : List Candidate}
    (agree : ∀ c ∈ cs, ∀ d ∈ cs, c.path = d.path → c = d) {c : Candidate} :
    c ∈ firsts cs ↔ c ∈ cs := by
  refine ⟨mem_of_mem_firsts, fun member => ?_⟩
  obtain ⟨first, kept, same⟩ := exists_first member
  rwa [← agree first (mem_of_mem_firsts kept) c member same]

theorem firsts_nodup (cs : List Candidate) : (firsts cs).Nodup :=
  (firsts_paths_nodup cs).of_map _

/-- Candidates in the middle that agree may come in any order. -/
theorem firsts_perm {front asked asked' back : List Candidate} (same : asked.Perm asked')
    (agree : ∀ c ∈ asked, ∀ d ∈ asked, c.path = d.path → c = d) :
    (firsts (front ++ asked ++ back)).Perm (firsts (front ++ asked' ++ back)) := by
  have agree' : ∀ c ∈ asked', ∀ d ∈ asked', c.path = d.path → c = d :=
    fun c first d second => agree c (same.mem_iff.mpr first) d (same.mem_iff.mpr second)
  refine (List.perm_ext_iff_of_nodup (firsts_nodup _) (firsts_nodup _)).mpr fun c => ?_
  simp only [mem_firsts_append, mem_firsts_of_agree agree, mem_firsts_of_agree agree',
    List.mem_append, same.mem_iff]

/-! ## Positions -/

/-- Every position of the first list stands for one of the second with the same package. -/
def Renames (f : Nat → Nat) (cs cs' : List Candidate) : Prop :=
  ∀ (i : Nat) (e : Candidate × Package), (owned (firsts cs))[i]? = some e →
    (owned (firsts cs'))[f i]? = some e

theorem exists_renaming {cs cs' : List Candidate} (same : (firsts cs).Perm (firsts cs')) :
    ∃ f, Renames f cs cs' := by
  have position (i : Nat) : ∃ j : Nat, ∀ e, (owned (firsts cs))[i]? = some e →
      (owned (firsts cs'))[j]? = some e := by
    cases at_i : (owned (firsts cs))[i]? with
    | none => exact ⟨0, fun e none => nomatch none⟩
    | some e =>
      have member : e ∈ owned (firsts cs') :=
        (same.flatMap_right _).mem_iff.mp (List.mem_of_getElem? at_i)
      obtain ⟨j, at_j⟩ := List.mem_iff_getElem?.mp member
      exact ⟨j, fun e' found => by rw [at_j, ← found]⟩
  choose f renamed using position
  exact ⟨f, renamed⟩

/-- Different positions stand for different positions. -/
theorem renaming_injective {f : Nat → Nat} {cs cs' : List Candidate} (renames : Renames f cs cs')
    {i j : Nat} {e e' : Candidate × Package} (at_i : (owned (firsts cs))[i]? = some e)
    (at_j : (owned (firsts cs))[j]? = some e') (same : f i = f j) : i = j := by
  have first := renames i e at_i
  rw [same, renames j e' at_j, Option.some.injEq] at first
  exact place_injective at_i at_j (congrArg place first.symm)

/-! ## Responses -/

/-- A package whose edges lead to the renamed positions. -/
def retarget (f : Nat → Nat) (p : Package) : Package :=
  { p with imports := p.imports.revise fun _ target? => some (target?.map f) }

/-- The second response has the packages of the first, at positions of their own to which their edges
lead, and the roots of the first. -/
structure Reordered (r r' : Response) : Prop where
  length : r.packages.length = r'.packages.length
  packages : ∃ f : Nat → Nat,
    (∀ i j, i < r.packages.length → j < r.packages.length → f i = f j → i = j) ∧
      ∀ (i : Nat) p, r.packages[i]? = some p → r'.packages[f i]? = some (retarget f p)
  roots : r.roots.Perm r'.roots

section Renaming

variable {g g' : PackageGraph} {cs cs' : List Candidate} {asks : Bool} {f : Nat → Nat}

theorem packages_renamed (reflects : Reflects g cs asks) (reflects' : Reflects g' cs' asks)
    (renames : Renames f cs cs') {i : Nat} {p : Package} (at_i : g.packages[i]? = some p) :
    g'.packages[f i]? = some p := by
  obtain ⟨c, found⟩ := exists_owned reflects at_i
  exact (owned_at reflects' (renames i _ found)).2.2

/-- Targets follow the renaming. -/
theorem targets_renamed (reflects : Reflects g cs asks) (reflects' : Reflects g' cs' asks)
    (renames : Renames f cs cs') (same : (firsts cs).Perm (firsts cs')) (path : String) :
    (importTargets g'.packages).get? path = ((importTargets g.packages).get? path).map f := by
  have differ : PathsDiffer g.packages := reflects.packages ▸ plain_paths_differ cs
  have differ' : PathsDiffer g'.packages := reflects'.packages ▸ plain_paths_differ cs'
  cases target : (importTargets g.packages).get? path with
  | some k =>
    obtain ⟨p, at_k, plain, held⟩ := (importTargets_unique differ).mp target
    exact (importTargets_unique differ').mpr
      ⟨p, packages_renamed reflects reflects' renames at_k, plain, held⟩
  | none =>
    apply Option.eq_none_iff_forall_ne_some.mpr
    intro k found
    obtain ⟨p, at_k, plain, held⟩ := (importTargets_unique differ').mp found
    have member : p ∈ g.packages := by
      rw [reflects.packages]
      have there := List.mem_of_getElem? at_k
      rw [reflects'.packages] at there
      exact (same.flatMap_right _).mem_iff.mpr there
    obtain ⟨i, at_i⟩ := List.mem_iff_getElem?.mp member
    rw [(importTargets_unique differ).mpr ⟨p, at_i, plain, held⟩] at target
    cases target

theorem retarget_link {p : Package} {targets targets' : Table String PackageId}
    (renamed : ∀ path, targets'.get? path = (targets.get? path).map f)
    (bare : p.origin = .builtin → p.imports = .empty) :
    p.link targets' = retarget f (p.link targets) := by
  by_cases builtin : p.origin = .builtin
  · have none : retarget f p = p := by
      have empty : p.imports.revise (fun _ target? => some (target?.map f)) = p.imports := by
        rw [bare builtin]
        rfl
      rw [retarget, empty]
    rw [Package.link, if_pos builtin, Package.link, if_pos builtin, none]
  · have imports : p.imports.revise (fun path _ => (targets'.get? path).map some) =
        (p.imports.revise fun path _ => (targets.get? path).map some).revise
          fun _ target? => some (target?.map f) := by
      apply Table.ext_entries
      simp only [Table.revise, List.filterMap_filterMap, renamed]
      apply List.filterMap_congr
      intro e _
      cases targets.get? e.1 <;> rfl
    rw [Package.link, if_neg builtin, Package.link, if_neg builtin, retarget, imports]

/-- Roots follow the renaming. -/
theorem roots_renamed (reflects : Reflects g cs asks) (reflects' : Reflects g' cs' asks)
    (renames : Renames f cs cs') (same : (firsts cs).Perm (firsts cs')) :
    (g.roots.map f).Perm g'.roots := by
  have once : (g.roots.map f).Nodup := by
    refine reflects.once.map_on fun i root j root' same => ?_
    obtain ⟨e, at_i, -⟩ := (reflects.marked i).mp root
    obtain ⟨e', at_j, -⟩ := (reflects.marked j).mp root'
    exact renaming_injective renames at_i at_j same
  refine (List.perm_ext_iff_of_nodup once reflects'.once).mpr fun j => ?_
  rw [List.mem_map, reflects'.marked]
  constructor
  · rintro ⟨i, root, rfl⟩
    obtain ⟨e, at_i, answers⟩ := (reflects.marked i).mp root
    exact ⟨e, renames i e at_i, answers⟩
  · rintro ⟨e, at_j, answers⟩
    have member : e ∈ owned (firsts cs) :=
      (same.flatMap_right _).mem_iff.mpr (List.mem_of_getElem? at_j)
    obtain ⟨i, at_i⟩ := List.mem_iff_getElem?.mp member
    exact ⟨i, (reflects.marked i).mpr ⟨e, at_i, answers⟩,
      place_injective (renames i e at_i) at_j rfl⟩

/-- Graphs of the same first candidates make responses that differ in their order. -/
theorem answer_reordered {settings settings' : Settings} (reflects : Reflects g cs asks)
    (reflects' : Reflects g' cs' asks) (same : (firsts cs).Perm (firsts cs'))
    (bare : ∀ p ∈ g.packages, p.origin = .builtin → p.imports = .empty) :
    Reordered (answer settings g) (answer settings' g') := by
  obtain ⟨f, renames⟩ := exists_renaming same
  have length : (answer settings g).packages.length = g.packages.length := List.length_map _
  have length' : (answer settings' g').packages.length = g'.packages.length := List.length_map _
  constructor
  case length =>
    rw [length, length', ← owned_length reflects, ← owned_length reflects']
    exact (same.flatMap_right _).length_eq
  case packages =>
    refine ⟨f, fun i j insideI insideJ equal => ?_, fun i p at_i => ?_⟩
    · rw [length, ← owned_length reflects] at insideI insideJ
      exact renaming_injective renames (List.getElem?_eq_getElem insideI)
        (List.getElem?_eq_getElem insideJ) equal
    · obtain ⟨before, stands, rfl⟩ := linkPackages_getElem?.mp at_i
      rw [← retarget_link (targets_renamed reflects reflects' renames same)
        (bare before (List.mem_of_getElem? stands))]
      exact linkPackages_getElem?.mpr
        ⟨before, packages_renamed reflects reflects' renames stands, rfl⟩
  case roots =>
    have ids : g.parts.2 = (g.roots.map f).filterMap fun i => (g'.get? i).map (·.id) := by
      rw [List.filterMap_map]
      apply List.filterMap_congr
      intro i root
      have stands := List.getElem?_eq_getElem (root_lt_length reflects root)
      simp only [PackageGraph.get?, Function.comp_apply, stands,
        packages_renamed reflects reflects' renames stands]
    show g.parts.2.Perm g'.parts.2
    rw [ids]
    exact (roots_renamed reflects reflects' renames same).filterMap _

end Renaming

/-! ## Queries -/

section Queries

variable {disk : Disk} {settings : Settings} {overlay : Overlay} {patterns patterns' : List String}

/-- The tree that a pattern walks. -/
def walkedTree? (settings : Settings) (raw : String) : Option Path :=
  match Pattern.read raw settings.workingDir with
  | .builtin => none
  | .dir dir => some dir
  | .file file => some (file.parent?.getD settings.workingDir)

/-- The directories with a descriptor that patterns walk. -/
def walkedDirs (disk : Disk) (settings : Settings) (patterns : List String) : List Path :=
  (patterns.filterMap (walkedTree? settings)).flatMap fun tree =>
    (disk.moduleDirs tree).toOption.getD []

/-- The path that a directory declares, if its descriptor can be read. -/
def declared? (disk : Disk) (dir : Path) : Option String :=
  (disk.moduleOf dir).toOption.map (·.2.module)

/-- No path is declared in two directories that are walked, and a `builtin` pattern has no rival.
When two spellings count as one directory is left open. -/
structure Unrivalled (one : Path → Path → Prop) (disk : Disk) (settings : Settings)
    (patterns : List String) : Prop where
  once : ∀ dir ∈ walkedDirs disk settings patterns, ∀ dir' ∈ walkedDirs disk settings patterns,
    ∀ path ∈ declared? disk dir, declared? disk dir' = some path → one dir dir'
  builtin : builtinPath ∈ patterns → ∀ dir ∈ walkedDirs disk settings patterns,
    declared? disk dir ≠ some builtinPath

/-- A directory offers a candidate for the path that it declares. -/
theorem declared_of_offers {fs : FileSystem} {asked : Bool} {dir : Path} {c : Candidate}
    (offers : directoryCandidate? disk fs asked dir = some c) : declared? disk dir = some c.path := by
  unfold directoryCandidate? at offers
  split at offers
  · rename_i file d read
    obtain ⟨listed, plain, found, rfl⟩ := Option.pmap_eq_some_iff.mp offers
    rw [declared?, read]
    exact congrArg some (listed_package_fields found).2.1.symm
  · cases offers

theorem exists_walked {fs : FileSystem} {raw : String} {tree : Path} {c : Candidate}
    (given : raw ∈ patterns) (walks : walkedTree? settings raw = some tree)
    (member : c ∈ treeCandidates disk fs true tree) :
    ∃ dir ∈ walkedDirs disk settings patterns, directoryCandidate? disk fs true dir = some c := by
  unfold treeCandidates at member
  cases listed : disk.moduleDirs tree with
  | error cause =>
    simp only [listed, List.not_mem_nil] at member
  | ok dirs =>
    simp only [listed] at member
    obtain ⟨dir, inside, offers⟩ := List.mem_filterMap.mp member
    refine ⟨dir, List.mem_flatMap.mpr ⟨tree, List.mem_filterMap.mpr ⟨raw, given, walks⟩, ?_⟩, offers⟩
    rw [listed]
    exact inside

/-- What a pattern offers is the builtin package or comes from a directory that it walks. -/
theorem mem_patternCandidates {fs : FileSystem} {c : Candidate}
    (member : c ∈ patterns.flatMap (patternCandidates disk fs settings)) :
    builtinPath ∈ patterns ∧ c = builtinCandidate settings.builtinDir ∨
      ∃ dir ∈ walkedDirs disk settings patterns, directoryCandidate? disk fs true dir = some c := by
  obtain ⟨raw, given, offers⟩ := List.mem_flatMap.mp member
  unfold patternCandidates at offers
  cases read : Pattern.read raw settings.workingDir with
  | builtin =>
    simp only [read, List.mem_singleton] at offers
    exact Or.inl ⟨(read_eq_builtin_iff raw settings.workingDir).mp read ▸ given, offers⟩
  | dir dir =>
    simp only [read] at offers
    exact Or.inr (exists_walked given (by simp only [walkedTree?, read]) offers)
  | file file =>
    simp only [read] at offers
    exact Or.inr (exists_walked given (by simp only [walkedTree?, read]) offers)

/-- Without rivals, candidates for one path are one candidate. -/
theorem unrivalled_agree {fs : FileSystem} (clear : Unrivalled (· = ·) disk settings patterns) :
    ∀ c ∈ patterns.flatMap (patternCandidates disk fs settings),
      ∀ d ∈ patterns.flatMap (patternCandidates disk fs settings), c.path = d.path → c = d := by
  intro c first d second same
  rcases mem_patternCandidates first with ⟨given, rfl⟩ | ⟨dir, walked, offers⟩ <;>
    rcases mem_patternCandidates second with ⟨given', rfl⟩ | ⟨dir', walked', offers'⟩
  · rfl
  · have held : d.path = builtinPath := same.symm
    exact absurd (held ▸ declared_of_offers offers') (clear.builtin given dir' walked')
  · have held : c.path = builtinPath := same
    exact absurd (held ▸ declared_of_offers offers) (clear.builtin given' dir walked)
  · obtain rfl := clear.once dir walked dir' walked' c.path (declared_of_offers offers)
      (same ▸ declared_of_offers offers')
    exact Option.some.inj (offers.symm.trans offers')

/-- Where no path is claimed from two walked directories, the order of the patterns decides nothing
but the order of the response. -/
theorem load_in_any_order (clear : Unrivalled (· = ·) disk settings patterns)
    (same : patterns.Perm patterns') :
    ((∃ r, load disk settings overlay patterns = .ok r) ↔
      ∃ r', load disk settings overlay patterns' = .ok r') ∧
    ∀ r r', load disk settings overlay patterns = .ok r →
      load disk settings overlay patterns' = .ok r' → Reordered r r' := by
  constructor
  · simp only [load_eq_ok_iff, exists_and_left, exists_eq', and_true, same.mem_iff]
  · intro r r' ran ran'
    obtain ⟨sound, rfl⟩ := load_eq_ok_iff.mp ran
    obtain ⟨sound', rfl⟩ := load_eq_ok_iff.mp ran'
    have reflects := gathered_reflects overlay sound
    have reflects' := gathered_reflects overlay sound'
    have asks : patterns'.contains builtinPath = patterns.contains builtinPath :=
      Bool.eq_iff_iff.mpr (by simp only [List.contains_iff_mem, same.mem_iff])
    rw [asks] at reflects'
    refine answer_reordered reflects reflects' ?_ ?_
    · exact firsts_perm (same.flatMap_right _) (unrivalled_agree clear)
    · intro p member builtin
      rw [reflects.packages] at member
      obtain ⟨c, kept, own⟩ := List.mem_flatMap.mp member
      exact builtin_candidate_imports (mem_of_mem_firsts kept) own builtin

end Queries

instance (one : Path → Path → Prop) [∀ dir dir', Decidable (one dir dir')] (disk : Disk)
    (settings : Settings) (patterns : List String) :
    Decidable (Unrivalled one disk settings patterns) :=
  decidable_of_iff (_ ∧ _) ⟨fun both => ⟨both.1, both.2⟩, fun clear => ⟨clear.once, clear.builtin⟩⟩

/-- Two modules and the builtin package, asked for in two orders. -/
theorem example_in_any_order : ∃ r r',
    Unrivalled (· = ·) exampleDisk (exampleSettings false) ["/w", "/examples", "builtin"] ∧
    ["/w", "/examples", "builtin"].Perm ["builtin", "/examples", "/w"] ∧
    load exampleDisk (exampleSettings false) .empty ["/w", "/examples", "builtin"] = .ok r ∧
    load exampleDisk (exampleSettings false) .empty ["builtin", "/examples", "/w"] = .ok r' ∧
    r.packages.map (·.imports.entries) = [[("e", some 1), ("w", some 0)], [], []] ∧
    r'.packages.map (·.imports.entries) = [[], [], [("e", some 1), ("w", some 2)]] ∧
    Reordered r r' := by
  have clear : Unrivalled (· = ·) exampleDisk (exampleSettings false)
      ["/w", "/examples", "builtin"] := by decide +kernel
  have same : ["/w", "/examples", "builtin"].Perm ["builtin", "/examples", "/w"] := by decide
  obtain ⟨r, ran, edges⟩ : ∃ r,
      load exampleDisk (exampleSettings false) .empty ["/w", "/examples", "builtin"] = .ok r ∧
        r.packages.map (·.imports.entries) = [[("e", some 1), ("w", some 0)], [], []] :=
    exists_ok_of_any (by decide +kernel)
  obtain ⟨r', ran', edges'⟩ : ∃ r',
      load exampleDisk (exampleSettings false) .empty ["builtin", "/examples", "/w"] = .ok r' ∧
        r'.packages.map (·.imports.entries) = [[], [], [("e", some 1), ("w", some 2)]] :=
    exists_ok_of_any (by decide +kernel)
  exact ⟨r, r', clear, same, ran, ran', edges, edges',
    (load_in_any_order clear same).2 r r' ran ran'⟩

/-- A module with a source whose clause cannot be read. -/
def brokenDisk : Disk where
  root := [
    ("a", .directory [
      ("a.gno", .file (Text.utf8Bytes "import\n")),
      ("gno.mod", .file (Text.utf8Bytes "module a\n"))])]
  ordered := .directory (by decide) (by
    simp only [List.mem_cons, List.not_mem_nil, or_false, forall_eq]
    refine .directory (by decide) ?_
    simp only [List.mem_cons, List.not_mem_nil, or_false, forall_eq_or_imp, forall_eq]
    exact ⟨.file _, .file _⟩)
  workingDir := []

/-- A working directory that is spelled with two slashes. -/
def slashedSettings : Settings :=
  { sampleSettings with workingDir := ⟨"//a"⟩ }

/-- An unsaved change to the source. -/
def mendedOverlay : Overlay :=
  .ofList [(⟨"/a/a.gno"⟩, Text.utf8Bytes "package x\n")]

/-- Both paths lead to one place. -/
def SamePlace (disk : Disk) (dir dir' : Path) : Prop :=
  (disk.resolve {} dir).toOption = (disk.resolve {} dir').toOption

instance (disk : Disk) (dir dir' : Path) : Decidable (SamePlace disk dir dir') :=
  inferInstanceAs (Decidable (_ = _))

/-- Reordering changes packages in their edges alone. -/
theorem mem_reordered {r r' : Response} (reordered : Reordered r r') {p : Package}
    (member : p ∈ r.packages) : ∃ p' ∈ r'.packages, p'.name = p.name ∧ p'.errors = p.errors := by
  obtain ⟨f, -, stands⟩ := reordered.packages
  obtain ⟨i, at_i⟩ := List.mem_iff_getElem?.mp member
  exact ⟨retarget f p, List.mem_of_getElem? (stands i p at_i), rfl, rfl⟩

/-- A directory that is walked under two spellings is loaded under the first of them, so errors name
its files differently and the overlay is found or not, even if the spellings agree component by
component or lead to one place. -/
theorem spellings_rival_each_other :
    (Unrivalled (fun dir dir' => SamePlace brokenDisk dir dir' ∧ dir.same dir' = true) brokenDisk
        slashedSettings ["file=/", "/a"] ∧
      ∃ r r', load brokenDisk slashedSettings .empty ["file=/", "/a"] = .ok r ∧
        load brokenDisk slashedSettings .empty ["/a", "file=/"] = .ok r' ∧ ¬ Reordered r r') ∧
    Unrivalled (SamePlace brokenDisk) brokenDisk sampleSettings ["/a/../a", "/a"] ∧
      ∃ r r', load brokenDisk sampleSettings mendedOverlay ["/a/../a", "/a"] = .ok r ∧
        load brokenDisk sampleSettings mendedOverlay ["/a", "/a/../a"] = .ok r' ∧
        ¬ Reordered r r' := by
  refine ⟨⟨by decide +kernel, ?_⟩, by decide +kernel, ?_⟩
  · obtain ⟨r, ran, p, member, first⟩ : ∃ r,
        load brokenDisk slashedSettings .empty ["file=/", "/a"] = .ok r ∧
          ∃ p ∈ r.packages, p.errors.map (·.position) = ["//a/a.gno:1:1"] :=
      exists_ok_of_any (by decide +kernel)
    obtain ⟨r', ran', second⟩ : ∃ r',
        load brokenDisk slashedSettings .empty ["/a", "file=/"] = .ok r' ∧
          ∀ p ∈ r'.packages, p.errors.map (·.position) = ["/a/a.gno:1:1"] :=
      exists_ok_of_any (by decide +kernel)
    refine ⟨r, r', ran, ran', fun reordered => ?_⟩
    obtain ⟨p', member', -, same⟩ := mem_reordered reordered member
    rw [← same, second p' member'] at first
    exact absurd first (by decide)
  · obtain ⟨r, ran, p, member, first⟩ : ∃ r,
        load brokenDisk sampleSettings mendedOverlay ["/a/../a", "/a"] = .ok r ∧
          ∃ p ∈ r.packages, p.name = "" :=
      exists_ok_of_any (by decide +kernel)
    obtain ⟨r', ran', second⟩ : ∃ r',
        load brokenDisk sampleSettings mendedOverlay ["/a", "/a/../a"] = .ok r' ∧
          ∀ p ∈ r'.packages, p.name = "x" :=
      exists_ok_of_any (by decide +kernel)
    refine ⟨r, r', ran, ran', fun reordered => ?_⟩
    obtain ⟨p', member', same, -⟩ := mem_reordered reordered member
    rw [← same, second p' member'] at first
    exact absurd first (by decide)

end PackageLoader.PatternOrder
