import PackageLoader.Proofs.FirstDiscovery
import PackageLoader.Proofs.Separation

/-! Where external tests stand in a response and what they hold. Their files are those of a module
directory whose name and package clause say so, and they stand right behind the package that keeps
the others. Both belong to one candidate, which is why both answer the query or neither does. -/
namespace PackageLoader.ExternalTests
open FirstDiscovery Linking Offers Separation

variable {disk : Disk} {settings : Settings} {overlay : Overlay} {patterns : List String}
  {r : Response}

/-! ## Files of external tests -/

/-- The name of the file says that it is a test, and its header names a package with the test
suffix. -/
def ExternalTestFile (fs : FileSystem) (file : Path) : Prop :=
  ∃ name source header, file.fileName? = some name ∧ isTestFile name = true ∧
    fs.readSource file = .ok source ∧
    (parseHeader .withImports source.text).header? = some header ∧
    isTestName header.package.name = true

/-- How far a header is read makes no difference to its package clause. -/
theorem packageName?_clauseOnly (text : String) :
    (parseHeader .clauseOnly text).packageName? = (parseHeader .withImports text).packageName? := by
  unfold parseHeader readHeader
  cases readPackageClause (tokenize text).last (tokenize text).tokens <;> rfl

theorem isExternalTest_iff (fs : FileSystem) (file : Path) :
    fs.isExternalTest file = true ↔ ExternalTestFile fs file := by
  unfold FileSystem.isExternalTest ExternalTestFile
  rw [Bool.and_eq_true, Option.any_eq_true]
  constructor
  · rintro ⟨⟨name, named, test⟩, clause⟩
    split at clause
    · cases clause
    · rename_i source read
      rw [packageName?_clauseOnly, Option.any_eq_true] at clause
      obtain ⟨_, found, suffixed⟩ := clause
      obtain ⟨header, parsed, rfl⟩ := Option.map_eq_some_iff.mp found
      exact ⟨name, source, header, named, test, read, parsed, suffixed⟩
  · rintro ⟨name, source, header, named, test, read, parsed, suffixed⟩
    refine ⟨⟨name, named, test⟩, ?_⟩
    rw [read]
    simp only
    rw [packageName?_clauseOnly, Option.any_eq_true]
    exact ⟨_, Option.map_eq_some_iff.mpr ⟨header, parsed, rfl⟩, suffixed⟩

/-! ## Neighbours -/

theorem owned_cons (c : Candidate) (rest : List Candidate) :
    owned (c :: rest) = (c, c.package) :: (c.tests?.toList.map (c, ·) ++ owned rest) := rfl

/-- External tests stand behind the package of their candidate. -/
theorem owned_before {cs : List Candidate} {i : Nat} {e : Candidate × Package}
    (at_i : (owned cs)[i]? = some e) (separate : e.2.isExternalTest = true) :
    ∃ j, i = j + 1 ∧ (owned cs)[j]? = some (e.1, e.1.package) ∧ e.2 ∈ e.1.tests? := by
  induction cs generalizing i with
  | nil => simp [owned] at at_i
  | cons c rest ih =>
    rw [owned_cons] at at_i ⊢
    cases i with
    | zero =>
      cases at_i
      cases c.plain.symm.trans separate
    | succ i =>
      rw [List.getElem?_cons_succ] at at_i
      cases tests : c.tests? with
      | none =>
        rw [tests] at at_i
        obtain ⟨j, rfl, stands, own⟩ := ih at_i
        exact ⟨j + 1, rfl, stands, own⟩
      | some x =>
        rw [tests] at at_i
        cases i with
        | zero =>
          cases at_i
          exact ⟨0, rfl, rfl, tests⟩
        | succ i =>
          obtain ⟨j, rfl, stands, own⟩ := ih at_i
          exact ⟨j + 2, rfl, stands, own⟩

/-- Behind the package of a candidate stand its external tests, and no others. -/
theorem owned_behind {cs : List Candidate} {j : Nat} {c : Candidate}
    (at_j : (owned cs)[j]? = some (c, c.package)) :
    (∀ tests ∈ c.tests?, (owned cs)[j + 1]? = some (c, tests)) ∧
      (c.tests? = none → ∀ e, (owned cs)[j + 1]? = some e → e.2.isExternalTest = false) := by
  induction cs generalizing j with
  | nil => simp [owned] at at_j
  | cons d rest ih =>
    rw [owned_cons] at at_j ⊢
    cases j with
    | zero =>
      cases at_j
      cases tests : c.tests? with
      | none =>
        refine ⟨fun _ impossible => (by cases impossible), fun _ e next => ?_⟩
        cases rest with
        | nil => cases next
        | cons f _ =>
          cases next
          exact f.plain
      | some x =>
        refine ⟨fun _ same => ?_, fun impossible => by cases impossible⟩
        cases same
        rfl
    | succ j =>
      rw [List.getElem?_cons_succ] at at_j
      cases tests : d.tests? with
      | none =>
        rw [tests] at at_j
        exact ih at_j
      | some x =>
        rw [tests] at at_j
        cases j with
        | zero =>
          cases at_j
          cases c.plain.symm.trans (c.separate _ tests).1
        | succ j => exact ih at_j

/-! ## Responses -/

/-- What stands at a position of a response is what a kept candidate owns there, linked. -/
theorem response_at {g : PackageGraph} (ran : discover disk settings overlay patterns = .ok g)
    {i : Nat} {p : Package} : (linkPackages g.packages)[i]? = some p ↔
      ∃ e, (owned (firsts (candidates disk settings overlay patterns)))[i]? = some e ∧
        e.2.link (importTargets g.packages) = p := by
  rw [linkPackages_getElem?, (discover_reflects ran).packages, ← owned_packages]
  simp only [List.getElem?_map, Option.map_eq_some_iff]
  constructor
  · rintro ⟨_, ⟨e, at_i, rfl⟩, linked⟩
    exact ⟨e, at_i, linked⟩
  · rintro ⟨e, at_i, linked⟩
    exact ⟨e.2, ⟨e, at_i, rfl⟩, linked⟩

/-- Linking leaves external tests beside their base. -/
theorem testsOf_link {base tests : Package} (beside : TestsOf base tests)
    (targets : Table String PackageId) : TestsOf (base.link targets) (tests.link targets) := by
  constructor <;> simp [beside.workspace, beside.origin, beside.path, beside.id, beside.name,
    beside.module?, beside.nonempty]

section Positions

variable {g : PackageGraph} (ran : discover disk settings overlay patterns = .ok g)
include ran

/-- Everything in a response belongs to a kept candidate. -/
theorem response_member {p : Package} (member : p ∈ linkPackages g.packages) :
    ∃ c ∈ firsts (candidates disk settings overlay patterns), ∃ before ∈ c.packages,
      before.link (importTargets g.packages) = p := by
  obtain ⟨i, at_i⟩ := List.mem_iff_getElem?.mp member
  obtain ⟨e, at_e, linked⟩ := (response_at ran).mp at_i
  obtain ⟨kept, own⟩ := mem_owned (List.mem_of_getElem? at_e)
  exact ⟨e.1, kept, e.2, own, linked⟩

/-- Everything lists the same files twice. -/
theorem response_inStep {p : Package} (member : p ∈ linkPackages g.packages) :
    p.files = p.compiledFiles := by
  obtain ⟨c, kept, before, own, rfl⟩ := response_member ran member
  rw [link_files, link_compiledFiles]
  rcases candidate_parts (mem_of_mem_firsts kept) with rfl | ⟨sources, parts⟩
  · rw [show before = builtinPackage settings.builtinDir from List.mem_singleton.mp own]
    rfl
  · rcases List.mem_cons.mp own with same | tests
    · rw [same]
      exact parts.inStep
    · exact (parts.tests _ (Option.mem_toList.mp tests)).2.1

/-- External tests stand right behind their base and answer the query exactly if it does. -/
theorem response_before {i : Nat} {x : Package} (at_i : (linkPackages g.packages)[i]? = some x)
    (separate : x.origin = .externalTest) :
    ∃ j b, i = j + 1 ∧ (linkPackages g.packages)[j]? = some b ∧ TestsOf b x ∧
      (i ∈ g.roots ↔ j ∈ g.roots) := by
  have reflects := discover_reflects ran
  obtain ⟨e, at_e, rfl⟩ := (response_at ran).mp at_i
  rw [link_origin] at separate
  obtain ⟨kept, -⟩ := mem_owned (List.mem_of_getElem? at_e)
  obtain ⟨j, rfl, at_j, tests⟩ := owned_before at_e (by simp [Package.isExternalTest, separate])
  refine ⟨j, _, rfl, (response_at ran).mpr ⟨_, at_j, rfl⟩, ?_, ?_⟩
  · rcases candidate_parts (mem_of_mem_firsts kept) with builtin | ⟨sources, parts⟩
    · rw [builtin] at tests
      cases tests
    · exact testsOf_link (parts.tests _ tests).1 _
  · rw [reflects.marked, reflects.marked, at_e, at_j]
    simp

/-- A workspace package keeps the sources of its directory that are no external tests. The others
stand right behind it, if there are any. -/
theorem response_behind {j : Nat} {b : Package} (at_j : (linkPackages g.packages)[j]? = some b)
    (workspace : b.origin = .workspace) :
    ∃ m, b.module? = some m ∧
      b.files = (sourcesIn (overlay.inFrontOf disk.fileSystem) m.dir).filter
        (!(overlay.inFrontOf disk.fileSystem).isExternalTest ·) ∧
      ((∃ x, (linkPackages g.packages)[j + 1]? = some x ∧ x.origin = .externalTest ∧
          x.files = (sourcesIn (overlay.inFrontOf disk.fileSystem) m.dir).filter
            (overlay.inFrontOf disk.fileSystem).isExternalTest) ∨
        (∀ file ∈ sourcesIn (overlay.inFrontOf disk.fileSystem) m.dir,
          (overlay.inFrontOf disk.fileSystem).isExternalTest file = false) ∧
        ∀ x, (linkPackages g.packages)[j + 1]? = some x → x.origin ≠ .externalTest) := by
  obtain ⟨e, at_e, rfl⟩ := (response_at ran).mp at_j
  rw [link_origin] at workspace
  obtain ⟨kept, own⟩ := mem_owned (List.mem_of_getElem? at_e)
  have same : e = (e.1, e.1.package) :=
    Prod.ext rfl (plain_of_mem_packages own (by simp [Package.isExternalTest, workspace]))
  rw [same] at at_e workspace
  obtain ⟨follows, alone⟩ := owned_behind at_e
  rcases candidate_parts (mem_of_mem_firsts kept) with builtin | ⟨sources, parts⟩
  · rw [builtin] at workspace
    cases workspace
  · cases parts.assembled with
    | library origin home below place named => cases origin.symm.trans workspace
    | @module m origin home =>
      refine ⟨m, ?_, ?_, ?_⟩
      · rw [same, link_module?, home]
      · rw [same, link_files, parts.files]
      · cases tests : e.1.tests? with
        | none =>
          refine Or.inr ⟨parts.untested tests workspace, fun x next => ?_⟩
          obtain ⟨f, at_f, rfl⟩ := (response_at ran).mp next
          have plain := alone tests f at_f
          simpa [Package.isExternalTest] using plain
        | some x =>
          obtain ⟨beside, -, files⟩ := parts.tests x tests
          refine Or.inl ⟨_, (response_at ran).mpr ⟨_, follows x tests, rfl⟩, ?_, ?_⟩
          · rw [link_origin, beside.origin]
          · rw [link_files, files]

end Positions

/-- External tests have a shape of their own. Every package lists its files twice. External tests have
files and stand right behind a workspace package, with its path, name and module, and both are marked
as answering the query or neither is. A workspace package and the external tests behind it part the
sources of its directory, in order; it has none behind it only if there is no file for them. -/
theorem load_separates_tests (ran : load disk settings overlay patterns = .ok r) :
    let fs := overlay.inFrontOf disk.fileSystem
    ∃ g, discover disk settings overlay patterns = .ok g ∧
      r.roots = g.roots.filterMap (fun i => (r.packages[i]?).map (·.id)) ∧
      (∀ p ∈ r.packages, p.files = p.compiledFiles) ∧
      (∀ i x, r.packages[i]? = some x → x.origin = .externalTest →
        ∃ j b, i = j + 1 ∧ r.packages[j]? = some b ∧ TestsOf b x ∧
          (i ∈ g.roots ↔ j ∈ g.roots)) ∧
      (∀ j b, r.packages[j]? = some b → b.origin = .workspace →
        ∃ m, b.module? = some m ∧
          b.files = (sourcesIn fs m.dir).filter (!fs.isExternalTest ·) ∧
          ((∃ x, r.packages[j + 1]? = some x ∧ x.origin = .externalTest ∧
              x.files = (sourcesIn fs m.dir).filter fs.isExternalTest) ∨
            (∀ file ∈ sourcesIn fs m.dir, fs.isExternalTest file = false) ∧
            ∀ x, r.packages[j + 1]? = some x → x.origin ≠ .externalTest)) ∧
      ∀ file, fs.isExternalTest file = true ↔ ExternalTestFile fs file := by
  intro fs
  obtain ⟨g, discovered, packages, roots⟩ := load_eq_discover ran
  rw [packages]
  refine ⟨g, discovered, ?_, fun p => response_inStep discovered,
    fun i x at_i separate => response_before discovered at_i separate,
    fun j b at_j workspace => response_behind discovered at_j workspace, isExternalTest_iff fs⟩
  rw [roots]
  simp [PackageGraph.parts, PackageGraph.get?, linkPackages, Function.comp_def]

/-- The external tests of the sample stand behind its module. -/
theorem sample_separates_tests : ∃ r b x,
    load sampleDisk sampleSettings .empty ["/", "builtin"] = .ok r ∧
      r.packages[0]? = some b ∧ r.packages[1]? = some x ∧ x.origin = .externalTest ∧
      TestsOf b x := by
  obtain ⟨r, ran, -, origins, -, -⟩ := sample_response
  obtain ⟨g, -, -, -, before, -⟩ := load_separates_tests ran
  have second : (r.packages.map (·.origin))[1]? = some .externalTest := by simp [origins]
  rw [List.getElem?_map, Option.map_eq_some_iff] at second
  obtain ⟨x, at_one, separate⟩ := second
  obtain ⟨j, b, one, at_j, beside, -⟩ := before 1 x at_one separate
  cases one
  exact ⟨r, b, x, ran, at_j, at_one, separate, beside⟩

end PackageLoader.ExternalTests
