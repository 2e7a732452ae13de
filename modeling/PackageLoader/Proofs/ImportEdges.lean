import PackageLoader.Proofs.FirstDiscovery
import PackageLoader.Proofs.Resolution

/-! Every import edge of a response comes from a file and leads to a package. Each package that
discovery accepts is either the builtin one or resolved from its files, and linking looks its imports
up among paths that are pairwise different, so an edge has one target and none is left open. -/
namespace PackageLoader.ImportEdges
open FirstDiscovery Linking Offers Resolution TableLaws

variable {disk : Disk} {settings : Settings} {overlay : Overlay} {patterns : List String}
  {r : Response}

/-- Candidates are resolved, apart from the builtin package. -/
theorem candidate_resolved {c : Candidate} (member : c ∈ candidates disk settings overlay patterns)
    {p : Package} (own : p ∈ c.packages) (other : p.origin ≠ .builtin) :
    ∃ listed : Package, p = listed.resolve (overlay.inFrontOf disk.fileSystem) := by
  cases candidate_offered member with
  | library plain home below found =>
    simp only [libraryCandidate, Candidate.packages, Option.toList_none, List.mem_singleton] at own
    subst own
    unfold FileSystem.libraryPackage? at found
    split at found
    · cases found
      exact ⟨_, rfl⟩
    · cases found
  | builtin given =>
    simp only [builtinCandidate, Candidate.packages, Option.toList_none, List.mem_singleton] at own
    subst own
    exact absurd rfl other
  | module asked plain read found =>
    rcases mem_moduleCandidate_packages own with rfl | ⟨rfl, -⟩
    · exact ⟨_, rfl⟩
    · exact ⟨_, rfl⟩

/-- A response links packages that are on offer and have different paths. -/
theorem load_links (ran : load disk settings overlay patterns = .ok r) :
    ∃ found, r.packages = linkPackages found ∧ PathsDiffer found ∧
      ∀ p ∈ found, ∃ c ∈ candidates disk settings overlay patterns, p ∈ c.packages := by
  obtain ⟨g, discovered, packages, -⟩ := load_eq_discover ran
  have reflects := discover_reflects discovered
  refine ⟨g.packages, packages, reflects.packages ▸ plain_paths_differ _, fun p member => ?_⟩
  rw [reflects.packages] at member
  obtain ⟨c, kept, own⟩ := List.mem_flatMap.mp member
  exact ⟨c, mem_of_mem_firsts kept, own⟩

theorem load_pathsDiffer (ran : load disk settings overlay patterns = .ok r) :
    PathsDiffer r.packages := by
  obtain ⟨found, packages, differ, -⟩ := load_links ran
  rw [packages]
  exact linkPackages_pathsDiffer differ

/-- Edges lead to packages that are no external tests and have the path of the edge. -/
theorem load_edge (ran : load disk settings overlay patterns = .ok r) {p : Package}
    (member : p ∈ r.packages) (other : p.origin ≠ .builtin) {path : String}
    {target? : Option PackageId} (edge : p.imports.get? path = some target?) :
    ∃ (i : Nat) (q : Package), target? = some i ∧ r.packages[i]? = some q ∧
      q.isExternalTest = false ∧ q.path = path := by
  obtain ⟨found, packages, -, -⟩ := load_links ran
  rw [packages] at member ⊢
  obtain ⟨before, -, rfl⟩ := List.mem_map.mp member
  rw [link_origin] at other
  rw [link_imports _ other, Option.bind_eq_some_iff] at edge
  obtain ⟨_, -, looked⟩ := edge
  obtain ⟨i, target, rfl⟩ := Option.map_eq_some_iff.mp looked
  obtain ⟨⟨q, at_i, plain, rfl⟩, -⟩ := importTargets_get?_iff.mp target
  exact ⟨i, _, rfl, linkPackages_getElem?.mpr ⟨q, at_i, rfl⟩, by simpa using plain, by simp⟩

/-- Every import edge is complete. The imports of a package that is not the builtin one are those of
its compiled files that some package provides, and each leads to the only such package. -/
theorem load_links_imports (ran : load disk settings overlay patterns = .ok r) {p : Package}
    (member : p ∈ r.packages) (other : p.origin ≠ .builtin) :
    (∀ path, path ∈ p.imports.keys ↔
      (∃ file ∈ p.compiledFiles, ImportsPath (overlay.inFrontOf disk.fileSystem) file path) ∧
        ∃ q ∈ r.packages, q.isExternalTest = false ∧ q.path = path) ∧
    ∀ path target?, p.imports.get? path = some target? →
      ∃ (i : Nat) (q : Package), target? = some i ∧ r.packages[i]? = some q ∧
        q.isExternalTest = false ∧ q.path = path ∧
        ∀ (j : Nat) (q' : Package), r.packages[j]? = some q' → q'.isExternalTest = false →
          q'.path = path → j = i := by
  constructor
  · intro path
    obtain ⟨found, packages, differ, offered⟩ := load_links ran
    rw [packages] at member ⊢
    obtain ⟨before, accepted, rfl⟩ := List.mem_map.mp member
    rw [link_origin] at other
    obtain ⟨c, given, own⟩ := offered before accepted
    obtain ⟨listed, rfl⟩ := candidate_resolved given own other
    rw [mem_keys_iff, ← exists_target_iff differ]
    simp only [link_imports _ other, Option.bind_eq_some_iff, Option.map_eq_some_iff,
      resolve_imports, link_compiledFiles, resolve_compiledFiles]
    constructor
    · rintro ⟨_, _, ⟨-, imported⟩, i, target, -⟩
      exact ⟨imported, i, target⟩
    · rintro ⟨imported, i, target⟩
      exact ⟨some i, none, ⟨rfl, imported⟩, i, target, rfl⟩
  · intro path target? found
    obtain ⟨i, q, rfl, at_i, plain, rfl⟩ := load_edge ran member other found
    exact ⟨i, q, rfl, at_i, plain, rfl, fun j q' at_j plain' same =>
      position_unique (load_pathsDiffer ran) at_j at_i plain' plain same⟩

/-- A package that imports itself and something that nothing provides. -/
theorem sample_links_imports : ∃ r p,
    load sampleDisk sampleSettings .empty ["/", "builtin"] = .ok r ∧ p ∈ r.packages ∧
      p.origin ≠ .builtin ∧ p.imports.keys = ["a"] ∧
      ∃ (i : Nat) (q : Package), p.imports.get? "a" = some (some i) ∧ r.packages[i]? = some q ∧
        q.path = "a" := by
  obtain ⟨r, ran, -, origins, imports, -⟩ := sample_response
  cases listed : r.packages with
  | nil => simp [listed] at origins
  | cons p rest =>
    simp only [listed, List.map_cons, List.cons.injEq] at origins imports
    have member : p ∈ r.packages := by simp [listed]
    have other : p.origin ≠ .builtin := by simp [origins.1]
    have edge : p.imports.get? "a" = some (some 0) := get?_eq_some_iff.mpr (by simp [imports.1])
    obtain ⟨i, q, target, at_i, -, path, -⟩ := (load_links_imports ran member other).2 "a" _ edge
    have keys : p.imports.keys = ["a"] := by simp [Table.keys, imports.1]
    exact ⟨r, p, ran, listed ▸ member, other, keys, i, q, target ▸ edge, at_i, path⟩

end PackageLoader.ImportEdges
