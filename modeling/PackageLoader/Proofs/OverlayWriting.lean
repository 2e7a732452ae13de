import PackageLoader.Proofs.OverlayOnDisk

/-! Answering a query with an overlay is answering it with the files of the overlay on the disk. Every
step of discovery looks at directories that are spelled in normal form, apart from one separator that
settings may end in, and there the two cannot be told apart. What only a pattern can do is fail, and
it fails for both. -/
namespace PackageLoader.OverlayWriting
open Disk PathNormalForm LinkFreeDisk WrittenFiles Agreement OverlayOnDisk TableLaws

/-! ## Runs that fail alike -/

theorem toOption_bind {α β ε : Type} (x : Except ε α) (next : α → Except ε β) :
    (x >>= next).toOption = x.toOption.bind fun a => (next a).toOption := by
  cases x <;> rfl

/-- Steps that fail alike make runs that fail alike. -/
theorem foldlM_agree {α ε σ : Type} {step step' : σ → α → Except ε σ} {items : List α}
    (same : ∀ a ∈ items, ∀ s, (step' s a).toOption = (step s a).toOption) (s : σ) :
    (items.foldlM step' s).toOption = (items.foldlM step s).toOption := by
  induction items generalizing s with
  | nil => rfl
  | cons a rest ih =>
    have later := ih fun b member => same b (List.mem_cons_of_mem _ member)
    rw [List.foldlM_cons, List.foldlM_cons, toOption_bind, toOption_bind,
      same a (List.mem_cons_self ..)]
    exact Option.bind_congr fun next _ => later next

/-! ## Settings and patterns -/

/-- What the settings give as a root is spelled in normal form, up to a separator at the end. -/
def TidyRoot (settings : Settings) : Prop :=
  ∀ root, settings.root? = some root → ∃ names, Leads root names

/-- The path that a pattern asks for, unless it asks for the builtin package. -/
def asked? : Pattern → Option Path
  | .file p => some p
  | .dir p => some p
  | .builtin => none

/-- The path that a pattern asks for was made absolute. -/
theorem asked_absolutized {raw : String} {workingDir p : Path}
    (asks : asked? (Pattern.read raw workingDir) = some p) :
    ∃ text, workingDir.absolutize ⟨text⟩ = p := by
  unfold Pattern.read at asks
  dsimp only at asks
  split at asks
  · exact ⟨_, Option.some.inj asks⟩
  · split at asks
    · cases asks
    · exact ⟨_, Option.some.inj asks⟩

/-- A pattern asks for a path in normal form unless it leads upwards. -/
theorem asked_normal {raw : String} {workingDir : Path} (absolute : workingDir.isAbsolute = true)
    {p : Path} (asks : asked? (Pattern.read raw workingDir) = some p)
    (downward : .parent ∉ p.components) :
    ∃ below, (∀ name ∈ below, IsName name) ∧ p = canonicalPath below := by
  obtain ⟨text, rfl⟩ := asked_absolutized asks
  exact absolutize_normal absolute downward

/-- Patterns are read to paths that do not lead upwards. One that asks for the root as a file falls
back on the working directory, which then has to be spelled in normal form itself. -/
structure TidyPattern (workingDir : Path) (raw : String) : Prop where
  downward : ∀ p ∈ asked? (Pattern.read raw workingDir), .parent ∉ p.components
  fallback : Pattern.read raw workingDir = .file (canonicalPath []) → ∃ names, Leads workingDir names

/-! ## The library -/

/-- The path of a library package puts together the names of the directories that lead to it. -/
theorem libraryPath?_names {root dir : Path} {above names : List String} (leads : Leads root above)
    (below : Leads dir names) {path : String} (found : libraryPath? root dir = some path) :
    ∃ rest, (∀ name ∈ rest, IsName name) ∧ path = "/".intercalate rest := by
  obtain ⟨steps, place, rfl⟩ := Option.map_eq_some_iff.mp found
  unfold Path.below? at place
  rw [(leads_steps leads).1, (leads_steps below).1] at place
  split at place
  · cases place
    refine ⟨names.drop above.length, ?_, ?_⟩
    · exact fun name member => below.valid name (List.mem_of_mem_drop member)
    · rw [List.length_cons, List.length_map, List.drop_succ_cons, ← List.map_drop, texts_names]
  · cases place

theorem within_packages (root : Path) :
    (LibraryRoots.within root).packages = (root.child "gnovm").child "stdlibs" := by
  simp only [LibraryRoots.within]

theorem within_tests (root : Path) :
    (LibraryRoots.within root).tests = ((root.child "gnovm").child "tests").child "stdlibs" := by
  simp only [LibraryRoots.within]

theorem leads_child_name {p : Path} {names : List String} {name : String} (leads : Leads p names)
    (valid : IsName name) : Leads (p.child name) (names ++ [name]) :=
  leads_child leads valid ▸ leads_canonicalPath (names_concat leads.valid valid)

variable {overlay : Overlay} {disk : Disk}

section Steps

variable (linkFree : LinkFree disk) (writable : ∀ key ∈ overlay.keys, Writable disk key)
include linkFree writable

theorem agreeIn_isDir {p : Path} {names : List String} (leads : Leads p names)
    (isDir : disk.isDir p = true) :
    AgreeIn (overlay.inFrontOf disk.fileSystem)
      (Overlay.inFrontOf .empty (writtenTo overlay disk).fileSystem) p :=
  agreeIn_home linkFree writable (home_of_isDir linkFree leads isDir)

theorem isDir_agree :
    (Overlay.inFrontOf .empty (writtenTo overlay disk).fileSystem).isDir =
      (overlay.inFrontOf disk.fileSystem).isDir :=
  funext fun p => isDir_extends (written_extends linkFree writable) p

theorem libraryPackages_agree {root : Path} {names : List String} (leads : Leads root names) :
    libraryPackages (writtenTo overlay disk)
        (Overlay.inFrontOf .empty (writtenTo overlay disk).fileSystem) (.within root) =
      libraryPackages disk (overlay.inFrontOf disk.fileSystem) (.within root) := by
  have home : Leads (root.child "gnovm") _ := leads_child_name leads (by decide)
  have outer : Leads ((root.child "gnovm").child "tests") _ := leads_child_name home (by decide)
  have packages : Leads ((root.child "gnovm").child "stdlibs") _ := leads_child_name home (by decide)
  have tests : Leads (((root.child "gnovm").child "tests").child "stdlibs") _ :=
    leads_child_name outer (by decide)
  rw [← within_packages] at packages
  rw [← within_tests] at tests
  unfold libraryPackages
  rw [directoriesBelow_agree linkFree writable]
  apply List.filterMap_congr
  intro dir member
  have inside := home_of_mem_directoriesBelow linkFree packages dir member
  have agree := agreeIn_home linkFree writable inside
  obtain ⟨below, leadsBelow, -⟩ := inside
  have dirs := isDir_agree linkFree writable
  apply libraryPackage?_congr dirs (agree.sameFiles dirs)
  intro path found isDir
  obtain ⟨rest, valid, rfl⟩ := libraryPath?_names packages leadsBelow found
  exact (agreeIn_isDir linkFree writable (leads_intercalate tests valid) isDir).sameFiles dirs

theorem loadLibrary_agree {settings : Settings} (tidy : TidyRoot settings) (g : PackageGraph) :
    g.loadLibrary (writtenTo overlay disk)
        (Overlay.inFrontOf .empty (writtenTo overlay disk).fileSystem) settings =
      g.loadLibrary disk (overlay.inFrontOf disk.fileSystem) settings := by
  unfold PackageGraph.loadLibrary
  cases given : settings.root? with
  | none => rfl
  | some root =>
    obtain ⟨names, leads⟩ := tidy root given
    simp only [Option.map_some, isDir_agree linkFree writable, PackageGraph.addLibrary,
      libraryPackages_agree linkFree writable leads]

/-! ## Discovery -/

theorem loadModule_agree {dir : Path} (home : IsHome disk dir) (purpose : Purpose)
    (g : PackageGraph) :
    g.loadModule (writtenTo overlay disk)
        (Overlay.inFrontOf .empty (writtenTo overlay disk).fileSystem) purpose dir =
      g.loadModule disk (overlay.inFrontOf disk.fileSystem) purpose dir := by
  have agree := agreeIn_home linkFree writable home
  obtain ⟨names, leads, -⟩ := home
  unfold PackageGraph.loadModule PackageGraph.addModule
  simp only [moduleOf_agree linkFree writable leads,
    modulePackages_congr (agree.sameFiles (isDir_agree linkFree writable))]

theorem walk_agree {dir : Path} {names : List String} (leads : Leads dir names) (purpose : Purpose)
    (raw : String) (g : PackageGraph) :
    (g.walk (writtenTo overlay disk)
        (Overlay.inFrontOf .empty (writtenTo overlay disk).fileSystem) purpose raw dir).toOption =
      (g.walk disk (overlay.inFrontOf disk.fileSystem) purpose raw dir).toOption := by
  have found := moduleDirs_agree linkFree writable leads
  have homes := @home_of_mem_moduleDirs disk linkFree dir names leads
  unfold PackageGraph.walk
  cases listed : disk.moduleDirs dir with
  | error cause =>
    cases listed' : (writtenTo overlay disk).moduleDirs dir with
    | error cause' => cases purpose <;> rfl
    | ok dirs => rw [listed, listed'] at found; cases found
  | ok dirs =>
    cases listed' : (writtenTo overlay disk).moduleDirs dir with
    | error cause => rw [listed, listed'] at found; cases found
    | ok dirs' =>
      rw [listed, listed'] at found
      cases found
      exact foldlM_agree (fun d member g => congrArg Except.toOption
        (loadModule_agree linkFree writable (homes (listed ▸ rfl) d member) purpose g)) g

theorem loadPattern_agree {settings : Settings} {raw : String}
    (absolute : settings.workingDir.isAbsolute = true) (tidy : TidyPattern settings.workingDir raw)
    (g : PackageGraph) :
    (g.loadPattern (writtenTo overlay disk)
        (Overlay.inFrontOf .empty (writtenTo overlay disk).fileSystem) settings raw).toOption =
      (g.loadPattern disk (overlay.inFrontOf disk.fileSystem) settings raw).toOption := by
  unfold PackageGraph.loadPattern
  have normal {p : Path} (asks : asked? (Pattern.read raw settings.workingDir) = some p) :=
    asked_normal absolute asks (tidy.downward p asks)
  cases read : Pattern.read raw settings.workingDir with
  | builtin => rfl
  | dir p =>
    obtain ⟨below, valid, rfl⟩ := normal (read ▸ rfl : asked? _ = some p)
    exact walk_agree linkFree writable (leads_canonicalPath valid) .directory raw g
  | file p =>
    obtain ⟨below, valid, rfl⟩ := normal (read ▸ rfl : asked? _ = some p)
    rcases List.eq_nil_or_concat' below with rfl | ⟨above, last, rfl⟩
    · obtain ⟨names, leads⟩ := tidy.fallback read
      exact walk_agree linkFree writable leads .file raw g
    · have inner : ∀ name ∈ above, IsName name := fun name member =>
        valid name (List.mem_append_left _ member)
      simp only [canonicalPath_parent? inner (valid last (by simp)), Option.getD_some]
      exact walk_agree linkFree writable (leads_canonicalPath inner) .file raw g

theorem loadExamples_agree {settings : Settings} (tidy : TidyRoot settings) (g : PackageGraph) :
    (g.loadExamples (writtenTo overlay disk)
        (Overlay.inFrontOf .empty (writtenTo overlay disk).fileSystem) settings).toOption =
      (g.loadExamples disk (overlay.inFrontOf disk.fileSystem) settings).toOption := by
  unfold PackageGraph.loadExamples
  cases given : settings.root? with
  | none => rfl
  | some root =>
    obtain ⟨names, leads⟩ := tidy root given
    have examples : Leads (root.child "examples") _ := leads_child_name leads (by decide)
    simp only [Option.map_some, isDir_extends (written_extends linkFree writable)]
    split
    · exact walk_agree linkFree writable examples .examples "examples" g
    · rfl

end Steps

/-! ## Queries -/

/-- An overlay means what writing its files to the disk would mean: a query is answered with the same
response, or it fails both times. -/
theorem load_overlay_eq_written (linkFree : LinkFree disk)
    (writable : ∀ key ∈ overlay.keys, Writable disk key) {settings : Settings}
    (tidyRoot : TidyRoot settings) (absolute : settings.workingDir.isAbsolute = true)
    {patterns : List String} (tidy : ∀ raw ∈ patterns, TidyPattern settings.workingDir raw) :
    (load (writtenTo overlay disk) settings .empty patterns).toOption =
      (load disk settings overlay patterns).toOption := by
  have discovered : (discover (writtenTo overlay disk) settings .empty patterns).toOption =
      (discover disk settings overlay patterns).toOption := by
    unfold discover
    dsimp only
    rw [loadLibrary_agree linkFree writable tidyRoot, toOption_bind, toOption_bind,
      foldlM_agree fun raw member g =>
        loadPattern_agree linkFree writable absolute (tidy raw member) g]
    exact Option.bind_congr fun g _ => loadExamples_agree linkFree writable tidyRoot g
  unfold load
  rw [toOption_bind, toOption_bind, discovered]

/-- A module with one source file. -/
def overlaidDisk : Disk where
  root := [("examples", .directory [("a.gno", .file (Text.utf8Bytes "package a\n")),
    ("gno.mod", .file (Text.utf8Bytes "module a\n"))])]
  ordered := .directory (by decide) (by
    simp only [List.mem_cons, List.not_mem_nil, or_false, forall_eq]
    refine .directory (by decide) ?_
    simp only [List.mem_cons, List.not_mem_nil, or_false, forall_eq_or_imp, forall_eq]
    exact ⟨.file _, .file _⟩)
  workingDir := []

/-- Another source file of the module. -/
def sourceOverlay : Overlay :=
  .ofList [(⟨"/examples/b.gno"⟩, Text.utf8Bytes "package b\n")]

theorem overlaidDisk_linkFree : LinkFree overlaidDisk := by decide +kernel

theorem sourceOverlay_writable : ∀ key ∈ sourceOverlay.keys, Writable overlaidDisk key := by
  intro key member
  have keys : sourceOverlay.keys = [canonicalPath (["examples"] ++ ["b.gno"])] := by decide
  rw [keys, List.mem_singleton] at member
  subst member
  have free : kind? overlaidDisk (["examples"] ++ ["b.gno"]) = none := by decide
  exact .file (by decide) (by decide) ⟨by decide, by decide, by decide⟩ rfl
    (fun kind stands => by rw [free] at stands; cases stands) (by decide)

/-- The source file of the overlay joins its module either way. -/
theorem source_overlay_eq_written :
    let settings : Settings :=
      { root? := some ⟨"/"⟩, builtinDir := ⟨"/builtin"⟩, workingDir := ⟨"/examples"⟩,
        architecture := "amd64" }
    ∃ r, load overlaidDisk settings sourceOverlay ["."] = .ok r ∧
      load (writtenTo sourceOverlay overlaidDisk) settings .empty ["."] = .ok r := by
  intro settings
  have root : TidyRoot settings := fun root given => by
    cases given
    exact ⟨[], by simp, Or.inr rfl⟩
  have dot : ∀ raw ∈ ["."], TidyPattern settings.workingDir raw := by
    intro raw member
    rw [List.mem_singleton.mp member]
    exact ⟨by decide, fun root => absurd root (by decide)⟩
  have same := load_overlay_eq_written overlaidDisk_linkFree sourceOverlay_writable root (by decide) dot
  have answered : (load overlaidDisk settings sourceOverlay ["."]).isOk = true := by decide +kernel
  cases ran : load overlaidDisk settings sourceOverlay ["."] with
  | error cause => rw [ran] at answered; cases answered
  | ok r =>
    cases ran' : load (writtenTo sourceOverlay overlaidDisk) settings .empty ["."] with
    | error cause => rw [ran, ran'] at same; cases same
    | ok r' =>
      rw [ran, ran'] at same
      cases same
      exact ⟨r, rfl, rfl⟩

/-- A second separator at the front of the root, or of the working directory where a pattern falls
back on it, and a pattern of five dots, which is read to the directory above: in each case the disk
spells its files in another way than the overlay. -/
theorem overlay_spelling_differs :
    let settings : Settings :=
      { builtinDir := ⟨"/builtin"⟩, workingDir := ⟨"/examples"⟩, architecture := "amd64" }
    let rooted := { settings with root? := some ⟨"//"⟩ }
    let doubled := { settings with workingDir := ⟨"//examples"⟩ }
    let written := writtenTo sourceOverlay overlaidDisk
    LinkFree overlaidDisk ∧ (∀ key ∈ sourceOverlay.keys, Writable overlaidDisk key) ∧
      (load written rooted .empty []).toOption ≠ (load overlaidDisk rooted sourceOverlay []).toOption ∧
      (load written doubled .empty ["file=/"]).toOption ≠
        (load overlaidDisk doubled sourceOverlay ["file=/"]).toOption ∧
      (load written settings .empty ["....."]).toOption ≠
        (load overlaidDisk settings sourceOverlay ["....."]).toOption := by
  intro settings rooted doubled written
  exact ⟨overlaidDisk_linkFree, sourceOverlay_writable, by decide +kernel, by decide +kernel,
    by decide +kernel⟩

end PackageLoader.OverlayWriting
