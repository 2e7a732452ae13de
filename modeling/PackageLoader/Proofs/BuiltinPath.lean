import Mathlib.Data.List.TakeWhile
import PackageLoader.Proofs.ExternalTests
import PackageLoader.Proofs.HollowPackages
import PackageLoader.Proofs.PatternOrder

/-! Who answers a `builtin` pattern. The pattern marks whatever holds the builtin path, and the builtin
package only gets there first. A library directory or a module of that path that was found before answers
in its place, which is also the only way for a package of the library to answer a query. -/
namespace PackageLoader.BuiltinPath
open ExternalTests FirstDiscovery HollowPackages Linking Offers PatternOrder

/-- The patterns in front of the first `builtin` pattern. -/
def beforeBuiltin (patterns : List String) : List String :=
  patterns.takeWhile (· ≠ builtinPath)

/-- Something takes the builtin path before a `builtin` pattern can: a package of the library, or a
module that an earlier pattern walks and that lists source files or cannot be listed. -/
inductive Taken (disk : Disk) (settings : Settings) (overlay : Overlay) (patterns : List String) :
    Prop where
  | library {roots : LibraryRoots} {p : Package}
      (home : settings.root?.map LibraryRoots.within = some roots)
      (stands : disk.isDir roots.packages = true)
      (found : p ∈ libraryPackages disk (overlay.inFrontOf disk.fileSystem) roots)
      (claims : p.path = builtinPath) : Taken disk settings overlay patterns
  | module {dir file : Path} {d : Descriptor}
      (walked : dir ∈ walkedDirs disk settings (beforeBuiltin patterns))
      (reads : disk.moduleOf dir = .ok (file, d)) (claims : d.module = builtinPath)
      (offers : ((overlay.inFrontOf disk.fileSystem).listedPackage? dir file d).isSome) :
      Taken disk settings overlay patterns

section Candidates

variable {disk : Disk} {settings : Settings} {overlay : Overlay} {patterns : List String}

/-- The candidates that come before a `builtin` pattern is seen. -/
def earlier (disk : Disk) (settings : Settings) (overlay : Overlay) (patterns : List String) :
    List Candidate :=
  let fs := overlay.inFrontOf disk.fileSystem
  libraryCandidates disk fs settings ++
    (beforeBuiltin patterns).flatMap (patternCandidates disk fs settings)

/-- A package of the library on offer. -/
theorem mem_libraryCandidates {fs : FileSystem} {c : Candidate} :
    c ∈ libraryCandidates disk fs settings ↔ ∃ (roots : LibraryRoots) (p : Package)
      (plain : p.isExternalTest = false), settings.root?.map LibraryRoots.within = some roots ∧
        fs.isDir roots.packages = true ∧ p ∈ libraryPackages disk fs roots ∧
          c = libraryCandidate p plain := by
  unfold libraryCandidates
  constructor
  · intro member
    split at member
    · rename_i roots home
      split at member
      · rename_i stands
        obtain ⟨p, found, rfl⟩ := List.mem_pmap.mp member
        exact ⟨roots, p, _, home, stands, found, rfl⟩
      · cases member
    · cases member
  · rintro ⟨roots, p, plain, home, stands, found, rfl⟩
    rw [home]
    simp only [stands, ↓reduceIte]
    exact List.mem_pmap.mpr ⟨p, found, rfl⟩

theorem builtin_not_before (patterns : List String) : builtinPath ∉ beforeBuiltin patterns := by
  intro member
  simpa using List.mem_takeWhile_imp member

/-- Patterns in front of the first `builtin` pattern, that pattern and the others. -/
theorem exists_parted (given : builtinPath ∈ patterns) :
    ∃ after, patterns = beforeBuiltin patterns ++ builtinPath :: after := by
  induction patterns with
  | nil => cases given
  | cons raw rest ih =>
    unfold beforeBuiltin at ih ⊢
    by_cases builtin : raw = builtinPath
    · exact ⟨rest, by simp [builtin]⟩
    · obtain ⟨after, parted⟩ := ih (List.mem_of_ne_of_mem (Ne.symm builtin) given)
      refine ⟨after, ?_⟩
      rw [List.takeWhile_cons_of_pos (by simpa using builtin), List.cons_append, ← parted]

/-- What comes before a `builtin` pattern is not the builtin package. -/
theorem earlier_origin {c : Candidate} (member : c ∈ earlier disk settings overlay patterns) :
    c.package.origin ≠ .builtin := by
  rcases List.mem_append.mp member with library | walked
  · obtain ⟨roots, p, plain, -, -, found, rfl⟩ := mem_libraryCandidates.mp library
    obtain ⟨dir, -, offered⟩ := List.mem_filterMap.mp found
    rw [show (libraryCandidate p plain).package.origin = .library from
      (library_package_fields offered).1]
    decide
  · rcases mem_patternCandidates walked with ⟨given, -⟩ | ⟨dir, -, offers⟩
    · exact absurd given (builtin_not_before patterns)
    · unfold directoryCandidate? at offers
      split at offers
      · obtain ⟨listed, plain, found, rfl⟩ := Option.pmap_eq_some_iff.mp offers
        have origin := (listed_package_fields found).1
        rw [show (moduleCandidate _ true listed plain).package.origin = .workspace from origin]
        decide
      · cases offers

/-- A directory with a readable descriptor offers what it lists. -/
theorem directoryCandidate?_of_listed {fs : FileSystem} {dir file : Path} {d : Descriptor}
    {listed : Package} (asked : Bool) (reads : disk.moduleOf dir = .ok (file, d))
    (found : fs.listedPackage? dir file d = some listed) : directoryCandidate? disk fs asked dir =
      some (moduleCandidate fs asked listed (listed_package_plain fs dir file d listed found)) := by
  unfold directoryCandidate?
  simp only [reads]
  exact Option.pmap_eq_some_iff.mpr ⟨listed, _, found, rfl⟩

/-- What a walked directory offers is on offer. -/
theorem mem_of_walked {fs : FileSystem} {dir : Path} {c : Candidate}
    (walked : dir ∈ walkedDirs disk settings patterns)
    (offers : directoryCandidate? disk fs true dir = some c) :
    c ∈ patterns.flatMap (patternCandidates disk fs settings) := by
  obtain ⟨tree, given, inside⟩ := List.mem_flatMap.mp walked
  obtain ⟨raw, before, asks⟩ := List.mem_filterMap.mp given
  have walks : c ∈ treeCandidates disk fs true tree := by
    unfold treeCandidates
    cases dirs : disk.moduleDirs tree with
    | error cause =>
      rw [dirs] at inside
      cases inside
    | ok all =>
      rw [dirs] at inside
      exact List.mem_filterMap.mpr ⟨dir, inside, offers⟩
  refine List.mem_flatMap.mpr ⟨raw, before, ?_⟩
  unfold walkedTree? at asks
  unfold patternCandidates
  cases read : Pattern.read raw settings.workingDir with
  | builtin =>
    rw [read] at asks
    cases asks
  | dir dir =>
    rw [read] at asks
    cases asks
    exact walks
  | file file =>
    rw [read] at asks
    cases asks
    exact walks

/-- The path is taken exactly if an earlier candidate claims it. -/
theorem taken_iff : Taken disk settings overlay patterns ↔
    ∃ c ∈ earlier disk settings overlay patterns, c.path = builtinPath := by
  constructor
  · intro taken
    cases taken with
    | @library roots p home stands found claims =>
      have plain := library_packages_plain disk (overlay.inFrontOf disk.fileSystem) roots p found
      exact ⟨libraryCandidate p plain, List.mem_append_left _
        (mem_libraryCandidates.mpr ⟨roots, p, plain, home, stands, found, rfl⟩), claims⟩
    | module walked reads claims offers =>
      obtain ⟨listed, found⟩ := Option.isSome_iff_exists.mp offers
      exact ⟨_, List.mem_append_right _
        (mem_of_walked walked (directoryCandidate?_of_listed true reads found)),
        (listed_package_fields found).2.1.trans claims⟩
  · rintro ⟨c, member, claims⟩
    rcases List.mem_append.mp member with library | walked
    · obtain ⟨roots, p, plain, home, stands, found, rfl⟩ := mem_libraryCandidates.mp library
      exact .library home stands found claims
    · rcases mem_patternCandidates walked with ⟨given, -⟩ | ⟨dir, inside, offers⟩
      · exact absurd given (builtin_not_before patterns)
      · unfold directoryCandidate? at offers
        split at offers
        · rename_i file d reads
          obtain ⟨listed, plain, found, rfl⟩ := Option.pmap_eq_some_iff.mp offers
          refine .module inside reads ?_ (Option.isSome_of_mem found)
          exact (listed_package_fields found).2.1.symm.trans claims
        · cases offers

/-- Candidates come in three runs: those before a `builtin` pattern, what it offers, and the rest. -/
theorem candidates_parted (given : builtinPath ∈ patterns) : ∃ rest,
    candidates disk settings overlay patterns =
      earlier disk settings overlay patterns ++ builtinCandidate settings.builtinDir :: rest := by
  obtain ⟨after, parted⟩ := exists_parted given
  have offers : patternCandidates disk (overlay.inFrontOf disk.fileSystem) settings builtinPath =
      [builtinCandidate settings.builtinDir] := by
    unfold patternCandidates
    rw [(read_eq_builtin_iff builtinPath settings.workingDir).mpr rfl]
  refine ⟨after.flatMap (patternCandidates disk (overlay.inFrontOf disk.fileSystem) settings) ++
    exampleCandidates disk (overlay.inFrontOf disk.fileSystem) settings, ?_⟩
  rw [candidates, earlier]
  conv => lhs; rw [parted]
  simp [List.flatMap_append, offers]

/-- The builtin package is kept exactly if nothing takes its path before. -/
theorem builtin_kept_iff (given : builtinPath ∈ patterns) :
    builtinCandidate settings.builtinDir ∈ firsts (candidates disk settings overlay patterns) ↔
      ¬ Taken disk settings overlay patterns := by
  obtain ⟨rest, parted⟩ := @candidates_parted disk settings overlay patterns given
  rw [parted, mem_firsts_append, taken_iff]
  constructor
  · rintro (kept | ⟨-, free⟩) ⟨c, member, claims⟩
    · exact earlier_origin (mem_of_mem_firsts kept) rfl
    · exact free c member claims
  · intro free
    refine Or.inr ⟨?_, fun c member claims => free ⟨c, member, claims⟩⟩
    rw [firsts_cons]
    exact List.mem_cons_self ..

end Candidates

/-! ## Responses -/

section Responses

variable {disk : Disk} {settings : Settings} {overlay : Overlay} {patterns : List String}
  {g : PackageGraph}

/-- The identifiers of roots are those that the linked packages have at their positions. -/
theorem parts_linked (g : PackageGraph) : g.parts.2 =
    g.roots.filterMap fun i => ((linkPackages g.packages)[i]?).map (·.id) := by
  simp [PackageGraph.parts, PackageGraph.get?, linkPackages, Function.comp_def]

/-- What a kept candidate has on offer stands somewhere in the response. -/
theorem response_of_kept (ran : discover disk settings overlay patterns = .ok g) {c : Candidate}
    (kept : c ∈ firsts (candidates disk settings overlay patterns)) :
    ∃ i : Nat, (linkPackages g.packages)[i]? = some (c.package.link (importTargets g.packages)) ∧
      (i ∈ g.roots ↔ c.answers (patterns.contains builtinPath) = true) := by
  have own : (c, c.package) ∈ owned (firsts (candidates disk settings overlay patterns)) :=
    List.mem_flatMap.mpr ⟨c, kept, List.mem_map_of_mem (List.mem_cons_self ..)⟩
  obtain ⟨i, at_i⟩ := List.mem_iff_getElem?.mp own
  refine ⟨i, (response_at ran).mpr ⟨_, at_i, rfl⟩, ?_⟩
  rw [(discover_reflects ran).marked, at_i]
  simp

/-- A package of the library was offered by the library and not asked for. -/
theorem asked_of_library {p : Package} {c : Candidate}
    (given : c ∈ candidates disk settings overlay patterns) (own : p ∈ c.packages)
    (library : p.origin = .library) : c.asked = false ∧ p = c.package := by
  cases candidate_offered given with
  | library plain home below found => exact ⟨rfl, List.mem_singleton.mp own⟩
  | builtin given =>
    rw [List.mem_singleton.mp own] at library
    cases library
  | module asked plain read found =>
    rcases mem_moduleCandidate_packages own with rfl | ⟨rfl, -⟩
    · cases (listed_package_fields found).1.symm.trans library
    · cases (test_package_fields _ _).1.symm.trans library

/-- The builtin package was offered by a `builtin` pattern. -/
theorem candidate_of_builtin {p : Package} {c : Candidate}
    (given : c ∈ candidates disk settings overlay patterns) (own : p ∈ c.packages)
    (builtin : p.origin = .builtin) : c = builtinCandidate settings.builtinDir := by
  cases candidate_offered given with
  | library plain home below found =>
    rw [List.mem_singleton.mp own] at builtin
    cases (library_package_fields found).1.symm.trans builtin
  | builtin given => rfl
  | module asked plain read found =>
    rcases mem_moduleCandidate_packages own with rfl | ⟨rfl, -⟩
    · cases (listed_package_fields found).1.symm.trans builtin
    · cases (test_package_fields _ _).1.symm.trans builtin

/-- A package of the library answers a query exactly if it holds the builtin path and a `builtin` pattern
was given. Under such a pattern, a package of the builtin path always answers, and it is the builtin
package with its single file exactly if nothing takes the path before. -/
theorem load_builtin_answers {r : Response} (ran : load disk settings overlay patterns = .ok r) :
    ∃ g, discover disk settings overlay patterns = .ok g ∧
      r.roots = g.roots.filterMap (fun i => (r.packages[i]?).map (·.id)) ∧
      (∀ (i : Nat) (p : Package), r.packages[i]? = some p → p.origin = .library →
        (i ∈ g.roots ↔ p.path = builtinPath ∧ builtinPath ∈ patterns)) ∧
      (builtinPath ∈ patterns →
        (∃ (i : Nat) (p : Package), r.packages[i]? = some p ∧ i ∈ g.roots ∧
          p.isExternalTest = false ∧ p.path = builtinPath) ∧
        ((∃ (i : Nat) (p : Package), r.packages[i]? = some p ∧ i ∈ g.roots ∧ p.origin = .builtin ∧
            p.files = [settings.builtinDir.child "builtin.gno"]) ↔
          ¬ Taken disk settings overlay patterns)) := by
  obtain ⟨g, discovered, packages, roots⟩ := load_eq_discover ran
  have reflects := discover_reflects discovered
  rw [packages]
  refine ⟨g, discovered, roots.trans (parts_linked g), fun i p at_i library => ?_,
    fun given => ⟨?_, ?_, fun free => ?_⟩⟩
  · obtain ⟨e, at_e, rfl⟩ := (response_at discovered).mp at_i
    rw [link_origin] at library
    obtain ⟨kept, own⟩ := mem_owned (List.mem_of_getElem? at_e)
    obtain ⟨unasked, same⟩ := asked_of_library (mem_of_mem_firsts kept) own library
    have path : e.2.path = e.1.path := congrArg Package.path same
    rw [reflects.marked, at_e, link_path, path]
    simp [Candidate.answers, unasked, and_comm]
  · obtain ⟨rest, parted⟩ := @candidates_parted disk settings overlay patterns given
    have offered : builtinCandidate settings.builtinDir ∈
        candidates disk settings overlay patterns := by simp [parted]
    obtain ⟨holder, kept, path⟩ := exists_first offered
    obtain ⟨i, at_i, marked⟩ := response_of_kept discovered kept
    refine ⟨i, _, at_i, marked.mpr ?_, by simpa using holder.plain, ?_⟩
    · have holds : holder.path = builtinPath := path
      simp [Candidate.answers, holds, given]
    · rw [link_path]
      exact path
  · rintro ⟨i, p, at_i, -, builtin, -⟩
    obtain ⟨e, at_e, rfl⟩ := (response_at discovered).mp at_i
    rw [link_origin] at builtin
    obtain ⟨kept, own⟩ := mem_owned (List.mem_of_getElem? at_e)
    rw [← builtin_kept_iff given,
      ← candidate_of_builtin (mem_of_mem_firsts kept) own builtin]
    exact kept
  · obtain ⟨i, at_i, marked⟩ := response_of_kept discovered ((builtin_kept_iff given).mpr free)
    refine ⟨i, _, at_i, marked.mpr (by simp [Candidate.answers, builtinCandidate]), ?_, ?_⟩
    · rw [link_origin]
      rfl
    · rw [link_files]
      rfl

end Responses

/-- A library with a directory for the builtin path. -/
def builtinLibraryDisk : Disk :=
  diskOf [("/g/gnovm/stdlibs/builtin/b.gno", "package builtin\n")]

theorem builtinLibrary_response :
    ∃ r, load builtinLibraryDisk testsAloneSettings .empty ["builtin"] = .ok r ∧
      r.packages.map (·.origin) = [.library] ∧ r.packages.map (·.path) = ["builtin"] ∧
        r.packages.map (·.id) = ["builtin"] ∧ r.roots = ["builtin"] :=
  exists_ok_of_any (by decide +kernel)

/-- The path is taken, so what answers is another package than the builtin one. -/
theorem builtinLibrary_takes_path : ∃ r g p,
    load builtinLibraryDisk testsAloneSettings .empty ["builtin"] = .ok r ∧
      discover builtinLibraryDisk testsAloneSettings .empty ["builtin"] = .ok g ∧
      r.packages[0]? = some p ∧ p.origin = .library ∧ 0 ∈ g.roots ∧
      Taken builtinLibraryDisk testsAloneSettings .empty ["builtin"] := by
  obtain ⟨r, ran, origins, paths, -, -⟩ := builtinLibrary_response
  obtain ⟨g, discovered, -, library, answers⟩ := load_builtin_answers ran
  have first : (r.packages.map (·.origin))[0]? = some .library := by rw [origins]; rfl
  have named : (r.packages.map (·.path))[0]? = some "builtin" := by rw [paths]; rfl
  rw [List.getElem?_map, Option.map_eq_some_iff] at first named
  obtain ⟨p, at_zero, origin⟩ := first
  obtain ⟨p', at_zero', path⟩ := named
  cases at_zero.symm.trans at_zero'
  refine ⟨r, g, p, ran, discovered, at_zero, origin,
    (library 0 p at_zero origin).mpr ⟨path, by decide⟩, ?_⟩
  by_contra free
  obtain ⟨i, q, at_i, -, builtin, -⟩ := (answers (by decide)).2.mpr free
  have all : q.origin ∈ r.packages.map (·.origin) := List.mem_map_of_mem (List.mem_of_getElem? at_i)
  rw [origins, builtin] at all
  exact absurd all (by decide)

/-- Under a `builtin` pattern, a package of the library is a root, and there is no builtin package. -/
theorem library_answers_builtin : ∃ r p,
    load builtinLibraryDisk testsAloneSettings .empty ["builtin"] = .ok r ∧
      p ∈ r.packages ∧ p.origin = .library ∧ p.id ∈ r.roots ∧
      ∀ q ∈ r.packages, q.origin ≠ .builtin := by
  obtain ⟨r, ran, p, member, origin, root, none⟩ :
      ∃ r, load builtinLibraryDisk testsAloneSettings .empty ["builtin"] = .ok r ∧
        ∃ p ∈ r.packages, p.origin = .library ∧ p.id ∈ r.roots ∧
          ∀ q ∈ r.packages, q.origin ≠ .builtin :=
    exists_ok_of_any (by decide +kernel)
  exact ⟨r, p, ran, member, origin, root, none⟩

end PackageLoader.BuiltinPath
