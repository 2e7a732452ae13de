import PackageLoader.Proofs.OverlaidAlike
import PackageLoader.Proofs.PatternRuns
import PackageLoader.Proofs.Separation

/-! What a package is apart from how its directory is spelled. Files are known by their names, errors
by what they say, and the directory of the module by where it is. From directories that list files of
the same names with the same contents, loading makes packages that differ in nothing else, and they
take each other's place in a graph. -/
namespace PackageLoader.PackageOutlines
open FirstDiscovery Linking Offers OverlaidAlike PatternRuns Subdirectories

/-- What is left of a package if the spelling of paths is left out. -/
structure Outline where
  id : String
  name : String
  path : String
  origin : Origin
  imports : Imports
  files : List (Option String)
  compiledFiles : List (Option String)
  otherFiles : List (Option String)
  errors : List (String × ErrorKind)
  module? : Option (String × Except StorageError (List String))

/-- What an error says, without where it is. That a directory cannot be listed is said with its path,
and how this is spelled is left out. -/
def complaint (dir? : Option Path) (e : PackageError) : String × ErrorKind :=
  match dir?, e.kind with
  | some dir, .listing =>
    (.ofList (e.message.toList.drop ("reading " ++ dir.text).toList.length), .listing)
  | _, kind => (e.message, kind)

/-- What a package is, with files by their names and the directory of its module by where it leads. -/
def outline (disk : Disk) (p : Package) : Outline where
  id := p.id
  name := p.name
  path := p.path
  origin := p.origin
  imports := p.imports
  files := p.files.map (·.fileName?)
  compiledFiles := p.compiledFiles.map (·.fileName?)
  otherFiles := p.otherFiles.map (·.fileName?)
  errors := p.errors.map (complaint (p.module?.map (·.dir)))
  module? := p.module?.map fun m => (m.path, disk.resolve {} m.dir)

/-! ## Files -/

/-- Files of one name that are read alike. -/
structure Twins (fs : FileSystem) (file file' : Path) : Prop where
  name : file.fileName? = file'.fileName?
  contents : fs.contents file = fs.contents file'

section Files

variable {fs : FileSystem} {file file' : Path}

theorem map_eq_of_forall₂ {R : α → β → Prop} {f : α → γ} {g : β → γ} {as : List α} {bs : List β}
    (related : List.Forall₂ R as bs) (same : ∀ a b, R a b → f a = g b) : as.map f = bs.map g := by
  have images := List.rel_map (P := Eq) same related
  rwa [List.forall₂_eq_eq_eq] at images

theorem Twins.readSource (twins : Twins fs file file') :
    (∃ text, fs.readSource file = .ok ⟨file, text⟩ ∧ fs.readSource file' = .ok ⟨file', text⟩) ∨
      ∃ e e', fs.readSource file = .error e ∧ fs.readSource file' = .error e' ∧
        e.message = e'.message ∧ e.kind = e'.kind := by
  unfold FileSystem.readSource
  rw [twins.contents]
  cases fs.contents file' with
  | ok bytes => exact Or.inl ⟨_, rfl, rfl⟩
  | error cause => exact Or.inr ⟨_, _, rfl, rfl, rfl, rfl⟩

/-- What a package takes from a report on a file. -/
def gist (report : FileReport) : Option FileHeader × List (String × ErrorKind) :=
  (report.header?, report.errors.map (complaint none))

/-- Errors in files are never about listings, so where the module is plays no role in them. -/
theorem complaints_inspect (fs : FileSystem) (file : Path) (dir? : Option Path) :
    (fs.inspect file).errors.map (complaint dir?) = (fs.inspect file).errors.map (complaint none) := by
  have parsing : ∀ e ∈ (fs.inspect file).errors, e.kind = .parsing := by
    unfold FileSystem.inspect FileSystem.readSource
    cases fs.contents file <;> simp
  refine List.map_congr_left fun e member => ?_
  unfold complaint
  rw [parsing e member]
  cases dir? <;> rfl

theorem Twins.gist (twins : Twins fs file file') : gist (fs.inspect file) = gist (fs.inspect file') := by
  unfold FileSystem.inspect
  rcases twins.readSource with ⟨text, first, second⟩ | ⟨e, e', first, second, message, kind⟩
  · rw [first, second]
    simp [PackageOutlines.gist, complaint]
  · rw [first, second]
    simp [PackageOutlines.gist, complaint, message, kind]

theorem Twins.isExternalTest (twins : Twins fs file file') :
    fs.isExternalTest file = fs.isExternalTest file' := by
  unfold FileSystem.isExternalTest
  rw [twins.name]
  rcases twins.readSource with ⟨text, first, second⟩ | ⟨e, e', first, second, -⟩
  · rw [first, second]
  · rw [first, second]

theorem twins_of_siblings {d d' : Path} (siblings : Siblings fs d d' file file') :
    Twins fs file file' := by
  obtain ⟨name, first, second⟩ := siblings.named
  exact ⟨(fileName?_concat first).trans (fileName?_concat second).symm, siblings.contents⟩

end Files

/-! ## Packages -/

/-- Packages of one outline whose files are twins. -/
structure Paired (fs : FileSystem) (disk : Disk) (p p' : Package) : Prop where
  outline : outline disk p = outline disk p'
  files : List.Forall₂ (Twins fs) p.files p'.files
  compiledFiles : List.Forall₂ (Twins fs) p.compiledFiles p'.compiledFiles

section Packages

variable {fs : FileSystem} {disk : Disk} {p p' : Package}

theorem Paired.resolve (paired : Paired fs disk p p') :
    Paired fs disk (p.resolve fs) (p'.resolve fs) := by
  obtain ⟨same, files, compiledFiles⟩ := paired
  refine ⟨?_, files, compiledFiles⟩
  have gists : p.compiledFiles.map (fun file => gist (fs.inspect file)) =
      p'.compiledFiles.map fun file => gist (fs.inspect file) :=
    map_eq_of_forall₂ compiledFiles fun _ _ twins => twins.gist
  have headers := congrArg (List.filterMap Prod.fst) gists
  have errors := congrArg (List.flatMap Prod.snd) gists
  rw [List.filterMap_map, List.filterMap_map] at headers
  rw [List.flatMap_map, List.flatMap_map] at errors
  simp only [PackageOutlines.outline, Outline.mk.injEq] at same ⊢
  obtain ⟨id, name, path, origin, -, names, compiledNames, otherFiles, complained, module⟩ := same
  have reports : (p.compiledFiles.map fs.inspect).filterMap (·.header?) =
      (p'.compiledFiles.map fs.inspect).filterMap (·.header?) := by
    rw [List.filterMap_map, List.filterMap_map]
    exact headers
  refine ⟨id, ?_, path, origin, ?_, names, compiledNames, otherFiles, ?_, module⟩
  · simp only [Package.resolve, reports, name]
  · simp only [Package.resolve, reports]
  · simp only [Package.resolve, List.map_append, List.map_flatMap, List.flatMap_map,
      complaints_inspect]
    exact congrArg₂ (· ++ ·) complained errors

/-- Twins stay or move out together. -/
theorem splitFiles_twins {files files' compiled compiled' : List Path}
    (twins : List.Forall₂ (Twins fs) files files')
    (compiledTwins : List.Forall₂ (Twins fs) compiled compiled') :
    List.Forall₂ (Twins fs) (Package.splitFiles fs.isExternalTest files compiled).files
        (Package.splitFiles fs.isExternalTest files' compiled').files ∧
      List.Forall₂ (Twins fs) (Package.splitFiles fs.isExternalTest files compiled).compiledFiles
        (Package.splitFiles fs.isExternalTest files' compiled').compiledFiles ∧
      List.Forall₂ (Twins fs) (Package.splitFiles fs.isExternalTest files compiled).moved
        (Package.splitFiles fs.isExternalTest files' compiled').moved := by
  induction compiledTwins generalizing files files' with
  | nil => exact ⟨twins, .nil, .nil⟩
  | @cons file file' rest rest' head tail ih =>
    have tails : List.Forall₂ (Twins fs) files.tail files'.tail := by
      cases twins with
      | nil => exact .nil
      | cons first later => exact later
    obtain ⟨kept, compiled, moved⟩ := ih tails
    rw [Package.splitFiles, Package.splitFiles, head.isExternalTest]
    split
    · exact ⟨kept, compiled, .cons head moved⟩
    · refine ⟨List.rel_append ?_ kept, .cons head compiled, moved⟩
      cases twins with
      | nil => exact .nil
      | cons first later => exact .cons first .nil

theorem names_of_twins {files files' : List Path} (twins : List.Forall₂ (Twins fs) files files') :
    files.map (·.fileName?) = files'.map (·.fileName?) :=
  map_eq_of_forall₂ twins fun _ _ twins => twins.name

/-- Files behind the others keep packages paired. -/
theorem Paired.pushFiles (paired : Paired fs disk p p') {files files' : List Path}
    (twins : List.Forall₂ (Twins fs) files files') :
    Paired fs disk (p.pushFiles files) (p'.pushFiles files') := by
  obtain ⟨same, own, compiled⟩ := paired
  rw [Separation.pushFiles_eq, Separation.pushFiles_eq]
  refine ⟨?_, List.rel_append own twins, List.rel_append compiled twins⟩
  simp only [PackageOutlines.outline, Outline.mk.injEq, List.map_append, names_of_twins twins] at same ⊢
  simp only [same, and_self]

theorem Paired.splitTests (paired : Paired fs disk p p') :
    Paired fs disk (p.splitTests fs).1 (p'.splitTests fs).1 ∧
      Paired fs disk (p.splitTests fs).2 (p'.splitTests fs).2 := by
  obtain ⟨same, files, compiledFiles⟩ := paired
  obtain ⟨kept, compiled, moved⟩ := splitFiles_twins files compiledFiles
  simp only [PackageOutlines.outline, Outline.mk.injEq] at same
  constructor
  · refine ⟨?_, kept, compiled⟩
    simp only [PackageOutlines.outline, Package.splitTests, names_of_twins kept,
      names_of_twins compiled, same]
  · have tests : Paired fs disk p.externalTest p'.externalTest := by
      refine ⟨?_, .nil, .nil⟩
      simp only [PackageOutlines.outline, Package.externalTest, Package.new, same, List.map_nil]
    exact tests.pushFiles moved

theorem Paired.resolveWithTests (paired : Paired fs disk p p') :
    Paired fs disk (p.resolveWithTests fs).1 (p'.resolveWithTests fs).1 ∧
      Paired fs disk (p.resolveWithTests fs).2 (p'.resolveWithTests fs).2 := by
  obtain ⟨base, tests⟩ := paired.splitTests
  have resolved := base.resolve
  have name : ((p.splitTests fs).1.resolve fs).name = ((p'.splitTests fs).1.resolve fs).name :=
    congrArg Outline.name resolved.outline
  have named := congrArg₂ (fun (o : Outline) name => { o with name := name ++ testSuffix })
    tests.outline name
  exact ⟨resolved, Paired.resolve ⟨named, tests.files, tests.compiledFiles⟩⟩

/-- What a candidate brings into a graph, in outline. -/
def shape (disk : Disk) (c : Candidate) : Bool × List Outline :=
  (c.asked, c.packages.map (outline disk))

theorem moduleCandidate_shape (paired : Paired fs disk p p') (asked : Bool)
    (plain : p.isExternalTest = false) (plain' : p'.isExternalTest = false) :
    shape disk (moduleCandidate fs asked p plain) = shape disk (moduleCandidate fs asked p' plain') := by
  obtain ⟨base, tests⟩ := paired.resolveWithTests
  have hasFiles : (p.resolveWithTests fs).2.hasFiles = (p'.resolveWithTests fs).2.hasFiles := by
    simpa [PackageOutlines.outline, Package.hasFiles] using
      congrArg (fun o => !o.files.isEmpty) tests.outline
  simp only [shape, moduleCandidate, Candidate.packages, Option.filter_some, hasFiles,
    List.map_cons, base.outline]
  split
  · simp only [Option.toList_some, List.map_cons, List.map_nil, tests.outline]
  · rfl

/-- Two directories list twins, or neither can be listed. -/
inductive ListAlike (fs : FileSystem) (dir dir' : Path) : Prop where
  | listed {files files' : List Path} (first : fs.packageFiles dir = .ok files)
      (second : fs.packageFiles dir' = .ok files') (twins : List.Forall₂ (Twins fs) files files')
  | refused {cause : StorageError} (first : fs.packageFiles dir = .error cause)
      (second : fs.packageFiles dir' = .error cause)

/-- What a failure to list a directory says, without the directory. -/
theorem complaint_unlisted (position : String) (dir : Path) (cause : StorageError) :
    complaint (some dir) ⟨position, "reading " ++ dir.text ++ ": " ++ cause.message, .listing⟩ =
      (": " ++ cause.message, .listing) := by
  have parted : ("reading " ++ dir.text ++ ": " ++ cause.message).toList =
      ("reading " ++ dir.text).toList ++ (": " ++ cause.message).toList := by
    rw [String.append_assoc, String.toList_append]
  unfold complaint
  simp only
  rw [parted, List.drop_left, String.ofList_toList]

/-- Directories that list alike offer packages in pairs. -/
theorem listedPackage?_paired {dir dir' file file' : Path} {d : Descriptor}
    (alike : ListAlike fs dir dir') (name : file.fileName? = file'.fileName?)
    (place : disk.resolve {} dir = disk.resolve {} dir') :
    Option.Rel (Paired fs disk) (fs.listedPackage? dir file d) (fs.listedPackage? dir' file' d) := by
  unfold FileSystem.listedPackage?
  cases alike with
  | listed first second twins =>
    rw [first, second]
    cases twins with
    | nil => exact .none
    | cons head rest =>
      refine .some (Paired.pushFiles ⟨?_, .nil, .nil⟩ (.cons head rest))
      simp [PackageOutlines.outline, Package.new, name, place]
  | refused first second =>
    rw [first, second]
    refine .some ⟨?_, .nil, .nil⟩
    simp [PackageOutlines.outline, name, place, complaint_unlisted]

end Packages

/-! ## Graphs -/

/-- Graphs whose packages have the same outlines, place by place. -/
structure Matching (disk : Disk) (g g' : PackageGraph) : Prop where
  packages : g.packages.map (outline disk) = g'.packages.map (outline disk)
  byPath : g.byPath = g'.byPath
  roots : g.roots = g'.roots

section Graphs

variable {disk : Disk} {g g' : PackageGraph} {p p' : Package}

theorem Matching.refl (disk : Disk) (g : PackageGraph) : Matching disk g g := ⟨rfl, rfl, rfl⟩

/-- Folds over items that are alike keep states related. -/
theorem foldl_related {R : σ → σ → Prop} {step : σ → α → σ} {key : α → κ}
    (steps : ∀ s s' a a', R s s' → key a = key a' → R (step s a) (step s' a')) {as bs : List α}
    (alike : as.map key = bs.map key) {s s' : σ} (start : R s s') :
    R (as.foldl step s) (bs.foldl step s') := by
  rw [← List.forall₂_eq_eq_eq, List.forall₂_map_left_iff, List.forall₂_map_right_iff] at alike
  exact List.rel_foldl (fun s s' related a a' same => steps s s' a a' related same) start alike

theorem Matching.length (matching : Matching disk g g') : g.packages.length = g'.packages.length := by
  simpa using congrArg List.length matching.packages

theorem Matching.addRoot (matching : Matching disk g g') (id : PackageId) :
    Matching disk (g.addRoot id) (g'.addRoot id) := by
  unfold PackageGraph.addRoot
  rw [matching.roots]
  split
  · exact matching
  · exact ⟨matching.packages, matching.byPath, rfl⟩

theorem isExternalTest_of_outline (same : outline disk p = outline disk p') :
    p.isExternalTest = p'.isExternalTest :=
  congrArg (fun o : Outline => decide (o.origin = .externalTest)) same

theorem Matching.append (matching : Matching disk g g') (same : outline disk p = outline disk p') :
    Matching disk (g.append p) (g'.append p') := by
  have path : p.path = p'.path := congrArg Outline.path same
  have tests := isExternalTest_of_outline same
  refine ⟨?_, ?_, matching.roots⟩
  · simp only [PackageGraph.append, List.map_append, List.map_cons, List.map_nil, matching.packages,
      same]
  · simp only [PackageGraph.append, tests, path, matching.byPath, matching.length]

theorem Matching.insertFor (matching : Matching disk g g') (answers : Bool)
    (same : outline disk p = outline disk p') :
    Matching disk (g.insertFor answers p) (g'.insertFor answers p') := by
  have path : p.path = p'.path := congrArg Outline.path same
  have tests := isExternalTest_of_outline same
  have appended := matching.append same
  unfold PackageGraph.insertFor PackageGraph.insert PackageGraph.containsPath
  rw [matching.byPath, path, tests, matching.length]
  cases refused : !p'.isExternalTest && g'.byPath.contains p'.path with
  | true => exact matching
  | false =>
    cases answers with
    | true => exact appended.addRoot _
    | false => exact appended

theorem Matching.consider {c c' : Candidate} (matching : Matching disk g g')
    (same : shape disk c = shape disk c') : Matching disk (consider g c) (consider g' c') := by
  obtain ⟨asked, packages⟩ := Prod.mk.injEq _ _ _ _ ▸ same
  have path : c.path = c'.path :=
    congrArg Outline.path (List.cons.inj (show outline disk c.package :: _ = _ :: _ from packages)).1
  unfold FirstDiscovery.consider PackageGraph.containsPath
  rw [matching.byPath, path, asked]
  split
  · exact matching
  · exact foldl_related (fun _ _ _ _ matching same => matching.insertFor _ same) packages matching

theorem Matching.considered {cs cs' : List Candidate} (matching : Matching disk g g')
    (same : cs.map (shape disk) = cs'.map (shape disk)) :
    Matching disk (cs.foldl FirstDiscovery.consider g) (cs'.foldl FirstDiscovery.consider g') :=
  foldl_related (fun _ _ _ _ matching same => matching.consider same) same matching

theorem Matching.markBuiltin (matching : Matching disk g g') :
    Matching disk (markBuiltin g) (markBuiltin g') := by
  unfold FirstDiscovery.markBuiltin PackageGraph.lookup
  rw [matching.byPath]
  split
  · exact matching.addRoot _
  · exact matching

/-- A pattern keeps graphs matching. -/
theorem Matching.consult {fs : FileSystem} {settings : Settings} (matching : Matching disk g g')
    (raw : String) : Matching disk (consult disk fs settings g raw) (consult disk fs settings g' raw) := by
  unfold PatternRuns.consult
  split
  · rw [addBuiltin_eq_mark, addBuiltin_eq_mark]
    exact (matching.consider rfl).markBuiltin
  · exact matching.considered rfl
  · exact matching.considered rfl

theorem Matching.consulted {fs : FileSystem} {settings : Settings} (matching : Matching disk g g')
    (patterns : List String) : Matching disk (patterns.foldl (PatternRuns.consult disk fs settings) g)
      (patterns.foldl (PatternRuns.consult disk fs settings) g') := by
  induction patterns generalizing g g' with
  | nil => exact matching
  | cons raw rest ih => exact ih (matching.consult raw)

/-- Responses that differ in how paths are spelled and in nothing else. -/
structure Respelled (disk : Disk) (r r' : Response) : Prop where
  packages : r.packages.map (outline disk) = r'.packages.map (outline disk)
  roots : r.roots = r'.roots
  architecture : r.architecture = r'.architecture

/-- What linking leaves of an outline. -/
def relink (targets : Table String PackageId) (o : Outline) : Outline :=
  if o.origin = .builtin then o
  else { o with imports := o.imports.revise fun path _ => (targets.get? path).map some }

theorem outline_link (disk : Disk) (targets : Table String PackageId) (p : Package) :
    outline disk (p.link targets) = relink targets (outline disk p) := by
  have origin : (outline disk p).origin = p.origin := rfl
  unfold Package.link relink
  rw [origin]
  split <;> rfl

/-- Graphs that match are answered with packages of the same outlines and the same roots. -/
theorem Matching.answer (matching : Matching disk g g') (settings : Settings) :
    Respelled disk (answer settings g) (answer settings g') := by
  have claims : g.packages.map claim = g'.packages.map claim := by
    have told := congrArg (List.map fun o : Outline => (o.path, decide (o.origin = .externalTest)))
      matching.packages
    rwa [List.map_map, List.map_map] at told
  have linked (ps : List Package) : (linkPackages ps).map (outline disk) =
      (ps.map (outline disk)).map (relink (importTargets ps)) := by
    simp only [linkPackages, List.map_map]
    exact List.map_congr_left fun p _ => outline_link disk _ p
  refine ⟨?_, ?_, rfl⟩
  · show (linkPackages g.packages).map _ = (linkPackages g'.packages).map _
    rw [linked, linked, matching.packages, importTargets_congr claims]
  · have ids (g : PackageGraph) (id : PackageId) : (g.get? id).map (·.id) =
        ((g.packages.map (outline disk))[id]?).map (·.id) := by
      rw [List.getElem?_map, Option.map_map]
      rfl
    show g.roots.filterMap _ = g'.roots.filterMap _
    simp only [ids, matching.packages, matching.roots]

end Graphs

end PackageLoader.PackageOutlines
