import PackageLoader.Proofs.FirstDiscovery

/-! Whether a query fails is decided by its patterns alone: each of them is at fault or not whatever
was found before it, the first fault ends the query, and patterns without a fault go over the graph
one after the other. A whole load is therefore one equation between a fault and a fold. -/
namespace PackageLoader.PatternRuns
open FirstDiscovery Offers

/-- The value, unless there is a fault. -/
def settle (fault? : Option ε) (value : α) : Except ε α :=
  fault?.elim (.ok value) .error

theorem settle_some (e : ε) (value : α) : settle (some e) value = .error e := rfl

theorem settle_eq_ok_iff {fault? : Option ε} {value a : α} :
    settle fault? value = .ok a ↔ fault? = none ∧ value = a := by
  cases fault? <;> simp [settle]

theorem settle_eq_error_iff {fault? : Option ε} {value : α} {e : ε} :
    settle fault? value = .error e ↔ fault? = some e := by
  cases fault? <;> simp [settle]

/-- Where steps fail whatever came before them, a run ends at the first step that does. -/
theorem foldlM_settle {step : β → α → Except ε β} {fault? : α → Option ε} {next : β → α → β}
    (steps : ∀ b a, step b a = settle (fault? a) (next b a)) (items : List α) (b : β) :
    items.foldlM step b = settle (items.findSome? fault?) (items.foldl next b) := by
  induction items generalizing b with
  | nil => rfl
  | cons a rest ih =>
    rw [List.foldlM_cons, steps, List.findSome?_cons]
    cases fault? a with
    | some e => rfl
    | none => exact ih (next b a)

/-! ## Trees -/

/-- A descriptor that cannot be read is at fault where a file was asked for. -/
def moduleFault? (disk : Disk) (purpose : Purpose) (dir : Path) : Option LoadError :=
  match disk.moduleOf dir with
  | .ok _ => none
  | .error cause => if purpose = .file then some (.descriptor dir cause) else none

/-- A tree is at fault if it cannot be listed or, where a file was asked for, at the first descriptor
that cannot be read. -/
def treeFault? (disk : Disk) (purpose : Purpose) (raw : String) (dir : Path) : Option LoadError :=
  match disk.moduleDirs dir with
  | .ok dirs => dirs.findSome? (moduleFault? disk purpose)
  | .error cause => if purpose = .examples then none else some (.pattern raw cause)

section Walking

variable {disk : Disk} {fs : FileSystem} {settings : Settings}

theorem loadModule_eq (g : PackageGraph) (purpose : Purpose) (dir : Path) :
    g.loadModule disk fs purpose dir = settle (moduleFault? disk purpose dir)
      ((directoryCandidate? disk fs (purpose ≠ .examples) dir).elim g (consider g)) := by
  cases ran : g.loadModule disk fs purpose dir with
  | ok after =>
    have sound : moduleFault? disk purpose dir = none := by
      unfold PackageGraph.loadModule at ran
      unfold moduleFault?
      cases read : disk.moduleOf dir with
      | ok module => rfl
      | error cause =>
        simp only [read] at ran ⊢
        split at ran
        · cases ran
        · rename_i other
          rw [if_neg other]
    rw [sound, ← loadModule_considers ran]
    rfl
  | error e =>
    unfold PackageGraph.loadModule at ran
    unfold moduleFault?
    cases read : disk.moduleOf dir with
    | ok module =>
      simp only [read] at ran
      cases ran
    | error cause =>
      simp only [read] at ran ⊢
      split at ran
      · rename_i file
        rw [if_pos file, ← ran]
        rfl
      · cases ran

theorem walk_eq (g : PackageGraph) (purpose : Purpose) (raw : String) (dir : Path) :
    g.walk disk fs purpose raw dir = settle (treeFault? disk purpose raw dir)
      ((treeCandidates disk fs (purpose ≠ .examples) dir).foldl consider g) := by
  unfold PackageGraph.walk treeFault? treeCandidates
  cases disk.moduleDirs dir with
  | error cause =>
    simp only [List.foldl_nil]
    split <;> rfl
  | ok dirs =>
    simp only [foldlM_settle (fun g dir => loadModule_eq g purpose dir), List.foldl_filterMap]
    congr 2
    funext g dir
    cases directoryCandidate? disk fs (purpose ≠ .examples) dir <;> rfl

theorem moduleFault?_none {purpose : Purpose} (other : purpose ≠ .file) (disk : Disk) (dir : Path) :
    moduleFault? disk purpose dir = none := by
  unfold moduleFault?
  split
  · rfl
  · rw [if_neg other]

theorem treeFault?_examples (disk : Disk) (raw : String) (dir : Path) :
    treeFault? disk .examples raw dir = none := by
  unfold treeFault?
  split
  · exact List.findSome?_eq_none_iff.mpr fun dir _ => moduleFault?_none (by decide) disk dir
  · rfl

/-- A directory that was asked for is at fault only if it cannot be listed. -/
theorem treeFault?_directory_iff (disk : Disk) (raw : String) (dir : Path) :
    treeFault? disk .directory raw dir = none ↔ (disk.listing dir).isOk = true := by
  unfold treeFault? Disk.moduleDirs
  cases disk.listing dir with
  | error cause =>
    constructor
    · intro none
      cases none
    · intro ok
      cases ok
  | ok files =>
    exact ⟨fun _ => rfl, fun _ => List.findSome?_eq_none_iff.mpr fun dir _ =>
      moduleFault?_none (by decide) disk dir⟩

/-! ## Patterns -/

/-- What is at fault with a pattern. -/
def patternFault? (disk : Disk) (settings : Settings) (raw : String) : Option LoadError :=
  match Pattern.read raw settings.workingDir with
  | .builtin => none
  | .dir dir => treeFault? disk .directory raw dir
  | .file file => treeFault? disk .file raw (file.parent?.getD settings.workingDir)

/-- The graph behind a pattern without a fault. -/
def consult (disk : Disk) (fs : FileSystem) (settings : Settings) (g : PackageGraph) (raw : String) :
    PackageGraph :=
  match Pattern.read raw settings.workingDir with
  | .builtin => g.addBuiltin settings.builtinDir
  | .dir dir => (treeCandidates disk fs true dir).foldl consider g
  | .file file =>
    (treeCandidates disk fs true (file.parent?.getD settings.workingDir)).foldl consider g

theorem loadPattern_eq (g : PackageGraph) (raw : String) :
    g.loadPattern disk fs settings raw =
      settle (patternFault? disk settings raw) (consult disk fs settings g raw) := by
  unfold PackageGraph.loadPattern patternFault? consult
  cases Pattern.read raw settings.workingDir with
  | builtin => rfl
  | dir dir => exact walk_eq g .directory raw dir
  | file file => exact walk_eq g .file raw _

theorem loadExamples_eq (g : PackageGraph) :
    g.loadExamples disk fs settings =
      .ok ((exampleCandidates disk fs settings).foldl consider g) := by
  unfold PackageGraph.loadExamples exampleCandidates
  cases settings.root?.map (·.child "examples") with
  | none => rfl
  | some dir =>
    simp only
    split
    · rw [walk_eq, treeFault?_examples]
      rfl
    · rfl

end Walking

/-! ## Queries -/

/-- The graph behind the library and all patterns, none of them at fault. -/
def consulted (disk : Disk) (settings : Settings) (overlay : Overlay) (patterns : List String) :
    PackageGraph :=
  let fs := overlay.inFrontOf disk.fileSystem
  patterns.foldl (consult disk fs settings)
    ((libraryCandidates disk fs settings).foldl consider {})

/-- The graph of a query without faults. -/
def gathered (disk : Disk) (settings : Settings) (overlay : Overlay) (patterns : List String) :
    PackageGraph :=
  (exampleCandidates disk (overlay.inFrontOf disk.fileSystem) settings).foldl consider
    (consulted disk settings overlay patterns)

/-- The response that a graph makes. -/
def answer (settings : Settings) (g : PackageGraph) : Response where
  packages := linkPackages g.packages
  roots := g.parts.2
  architecture := settings.architecture

variable {disk : Disk} {settings : Settings} {overlay : Overlay} {patterns : List String}

/-- Discovery fails at the first fault or has found what was gathered. -/
theorem discover_eq : discover disk settings overlay patterns =
    settle (patterns.findSome? (patternFault? disk settings))
      (gathered disk settings overlay patterns) := by
  unfold discover
  simp only [loadLibrary_considers, foldlM_settle (fun g raw => loadPattern_eq g raw)]
  show settle _ (consulted disk settings overlay patterns) >>= _ = _
  cases patterns.findSome? (patternFault? disk settings) with
  | some e => rfl
  | none => exact loadExamples_eq _

/-- A query has the fault of its first pattern with one, or the answer of what was found. -/
theorem load_eq : load disk settings overlay patterns =
    settle (patterns.findSome? (patternFault? disk settings))
      (answer settings (gathered disk settings overlay patterns)) := by
  rw [load, discover_eq]
  cases patterns.findSome? (patternFault? disk settings) <;> rfl

theorem load_eq_ok_iff {r : Response} : load disk settings overlay patterns = .ok r ↔
    (∀ raw ∈ patterns, patternFault? disk settings raw = none) ∧
      answer settings (gathered disk settings overlay patterns) = r := by
  rw [load_eq, settle_eq_ok_iff, List.findSome?_eq_none_iff]

theorem gathered_reflects (overlay : Overlay)
    (sound : ∀ raw ∈ patterns, patternFault? disk settings raw = none) :
    Reflects (gathered disk settings overlay patterns) (candidates disk settings overlay patterns)
      (patterns.contains builtinPath) :=
  discover_reflects (discover_eq.trans (settle_eq_ok_iff.mpr
    ⟨List.findSome?_eq_none_iff.mpr sound, rfl⟩))

end PackageLoader.PatternRuns
