import PackageLoader.Proofs.OverlayWriting
import PackageLoader.Proofs.PackageOutlines
import PackageLoader.Proofs.PatternOrder
import PackageLoader.Proofs.RedundantPatterns

/-! A directory that is asked for under two spellings. On a disk without links, two paths of one place
lead through the same directories, which have the same descriptors and files of the same names with
the same contents, so that both queries find the same but for how paths are spelled. What an overlay
adds is seen under a spelling without steps upwards alone. -/
namespace PackageLoader.Spellings
open Disk FirstDiscovery LinkFreeDisk Offers OverlaidAlike OverlayWriting PackageOutlines PathNormalForm
open PatternOrder PatternRuns RedundantPatterns Subdirectories TwoPaths

/-! ## Directories -/

section Directories

variable {disk : Disk} {p p' d d' : Path} {place : List String}

/-- Directories across from each other have descriptors of the same name. -/
theorem descriptorIn_alike (linkFree : LinkFree disk) (meet : Meet disk place p p')
    (across : Across disk place p p' d d') : ∃ name? : Option String,
      disk.descriptorIn d = name?.map d.child ∧ disk.descriptorIn d' = name?.map d'.child ∧
        ∀ name ∈ name?, name ∈ descriptorNames ∧ disk.isFile (d.child name) = true := by
  obtain ⟨below, valid, -, rfl, rfl⟩ := across
  refine ⟨descriptorNames.find? fun name => disk.isFile ((descend p below).child name), ?_, ?_, ?_⟩
  · exact List.find?_map ..
  · have same : ∀ name ∈ descriptorNames, disk.isFile ((descend p' below).child name) =
        disk.isFile ((descend p below).child name) := by
      intro name descriptor
      have files := isFile_alike linkFree meet
        (names_concat valid (DirectoryWalk.isName_descriptor descriptor))
      rw [descend_concat, descend_concat] at files
      exact files.symm
    refine (List.find?_map ..).trans (congrArg (Option.map _) ?_)
    exact List.find?_congr same
  · intro name found
    exact ⟨List.mem_of_find?_eq_some found, by simpa using List.find?_some found⟩

theorem toOption_mapError (x : Except ε α) (f : ε → δ) : (x.mapError f).toOption = x.toOption := by
  cases x <;> rfl

/-- A descriptor at hand is read alike from directories across from each other. -/
theorem readDescriptor_alike (linkFree : LinkFree disk) (meet : Meet disk place p p')
    (across : Across disk place p p' d d') {name : String} (descriptor : name ∈ descriptorNames)
    (present : disk.isFile (d.child name) = true) :
    (disk.readDescriptor (d.child name)).toOption = (disk.readDescriptor (d'.child name)).toOption := by
  obtain ⟨below, valid, -, rfl, rfl⟩ := across
  have last := DirectoryWalk.isName_descriptor descriptor
  have all := names_concat valid last
  rw [← descend_concat] at present
  obtain ⟨bytes, found⟩ := isFile_iff_stat.mp present
  have there := stands_of_stat linkFree meet.first all found
  have stands : (disk.node? (place ++ (below ++ [name]))).isSome := by simp [there]
  have stats := stat_alike linkFree meet stands
  have contents := contents_alike linkFree meet stands
  rw [descend_concat, descend_concat] at stats contents
  unfold Disk.readDescriptor Disk.exists?
  rw [stats, contents, child_extension? _ last, child_extension? _ last]
  split
  · rfl
  split
  · rfl
  split
  · rfl
  simp only [toOption_mapError]

/-- The module of one directory is that of the other, or neither has one that can be read. -/
theorem moduleOf_alike (linkFree : LinkFree disk) (meet : Meet disk place p p')
    (across : Across disk place p p' d d') :
    (∃ name m, name ∈ descriptorNames ∧ disk.isFile (d.child name) = true ∧
      disk.moduleOf d = .ok (d.child name, m) ∧ disk.moduleOf d' = .ok (d'.child name, m)) ∨
    ∃ cause cause', disk.moduleOf d = .error cause ∧ disk.moduleOf d' = .error cause' := by
  obtain ⟨name?, first, second, holds⟩ := descriptorIn_alike linkFree meet across
  unfold Disk.moduleOf
  rw [first, second]
  cases name? with
  | none => exact Or.inr ⟨_, _, rfl, rfl⟩
  | some name =>
    obtain ⟨descriptor, present⟩ := holds name rfl
    have same := readDescriptor_alike linkFree meet across descriptor present
    simp only [Option.map_some]
    cases read : disk.readDescriptor (d.child name) with
    | error cause =>
      cases read' : disk.readDescriptor (d'.child name) with
      | error cause' => exact Or.inr ⟨cause, cause', rfl, rfl⟩
      | ok m => simp [read, read', Except.toOption] at same
    | ok m =>
      cases read' : disk.readDescriptor (d'.child name) with
      | error cause' => simp [read, read', Except.toOption] at same
      | ok m' =>
        rw [read, read'] at same
        obtain rfl : m = m' := Option.some.inj same
        exact Or.inl ⟨name, m, descriptor, present, rfl, rfl⟩

variable {overlay : Overlay}

/-- Directories across from each other that hold a descriptor list twins as source files, unless the
place that both lead to cannot be listed. -/
theorem packageFiles_alike (linkFree : LinkFree disk) (normal : Normal overlay)
    (meet : Meet disk place p p') (seen : SeenAlike overlay p p')
    (across : Across disk place p p' d d') {name : String} (descriptor : name ∈ descriptorNames)
    (present : disk.isFile (d.child name) = true) :
    ListAlike (overlay.inFrontOf disk.fileSystem) d d' := by
  obtain ⟨below, valid, -, rfl, rfl⟩ := across
  have all := names_concat valid (DirectoryWalk.isName_descriptor descriptor)
  have arrives {q : Path} (leads : disk.resolve {} q = .ok place)
      (present : disk.isFile (descend q (below ++ [name])) = true) : ∃ entries,
        disk.resolve {} (descend q below) = .ok (place ++ below) ∧
          disk.node? (place ++ below) = some (.directory entries) := by
    obtain ⟨bytes, reached⟩ := isFile_iff_stat.mp present
    exact resolve_above linkFree leads all reached
  rw [← descend_concat] at present
  obtain ⟨entries, arrived, stands⟩ := arrives meet.first present
  rw [isFile_alike linkFree meet all] at present
  obtain ⟨-, arrived', -⟩ := arrives meet.second present
  cases refused : disk.refuses (place ++ below) with
  | true =>
    have closed {q : Path} (arrived : disk.resolve {} q = .ok (place ++ below)) :
        (overlay.inFrontOf disk.fileSystem).packageFiles q = .error .permissionDenied := by
      simp [FileSystem.packageFiles, Overlay.inFrontOf, fileSystem, listing_eq, arrived, stands,
        refused, Except.map]
    exact .refused (closed arrived) (closed arrived')
  | false =>
    obtain ⟨files, files', listed, listed', siblings⟩ :=
      listing_alike linkFree normal meet seen (opened_eq_ok_iff.mpr ⟨arrived, stands, refused⟩)
        (opened_eq_ok_iff.mpr ⟨arrived', stands, refused⟩)
    refine .listed (by rw [FileSystem.packageFiles, listed]; rfl)
      (by rw [FileSystem.packageFiles, listed']; rfl)
      ((List.rel_filter ?_ siblings).imp fun _ _ => twins_of_siblings)
    intro file file' siblings
    simp only [(twins_of_siblings siblings).name, siblings.isDir]

theorem pmap_shape {fs : FileSystem} {asked : Bool} {listed? listed'? : Option Package}
    (paired : Option.Rel (Paired fs disk) listed? listed'?)
    (plain : ∀ p ∈ listed?, p.isExternalTest = false)
    (plain' : ∀ p ∈ listed'?, p.isExternalTest = false) :
    (listed?.pmap (moduleCandidate fs asked) plain).map (shape disk) =
      (listed'?.pmap (moduleCandidate fs asked) plain').map (shape disk) := by
  cases paired with
  | none => rfl
  | some paired =>
    simp only [Option.pmap_some, Option.map_some, moduleCandidate_shape paired asked (plain _ rfl)
      (plain' _ rfl)]

/-- Directories across from each other offer candidates of the same shape. -/
theorem directoryCandidate?_alike (linkFree : LinkFree disk) (normal : Normal overlay)
    (meet : Meet disk place p p') (seen : SeenAlike overlay p p')
    (across : Across disk place p p' d d') (asked : Bool) :
    (directoryCandidate? disk (overlay.inFrontOf disk.fileSystem) asked d).map (shape disk) =
      (directoryCandidate? disk (overlay.inFrontOf disk.fileSystem) asked d').map (shape disk) := by
  unfold directoryCandidate?
  rcases moduleOf_alike linkFree meet across with
    ⟨name, m, descriptor, present, read, read'⟩ | ⟨cause, cause', read, read'⟩
  · have alike := packageFiles_alike linkFree normal meet seen across descriptor present
    have names : (d.child name).fileName? = (d'.child name).fileName? := by
      have last := DirectoryWalk.isName_descriptor descriptor
      rw [child_fileName? d last, child_fileName? d' last]
    have places : disk.resolve {} d = disk.resolve {} d' := by
      obtain ⟨below, -, stands, rfl, rfl⟩ := across
      exact resolve_alike linkFree meet stands
    rw [read, read']
    exact pmap_shape (listedPackage?_paired alike names places) _ _
  · rw [read, read']

end Directories

/-! ## Trees -/

section Trees

variable {disk : Disk} {p p' : Path} {place : List String} {overlay : Overlay}

/-- Both paths are walked through directories across from each other, or neither can be listed. -/
theorem moduleDirs_alike (linkFree : LinkFree disk) (meet : Meet disk place p p') :
    (∃ dirs dirs', disk.moduleDirs p = .ok dirs ∧ disk.moduleDirs p' = .ok dirs' ∧
      List.Forall₂ (Across disk place p p') dirs dirs') ∨
    ∃ cause cause', disk.moduleDirs p = .error cause ∧ disk.moduleDirs p' = .error cause' := by
  have same : disk.opened p' = disk.opened p := by
    unfold Disk.opened
    rw [meet.first, meet.second]
  unfold Disk.moduleDirs Disk.listing
  rw [same]
  cases opens : disk.opened p with
  | error cause => exact Or.inr ⟨_, _, rfl, rfl⟩
  | ok found =>
    obtain ⟨leads, stands, -⟩ := opened_eq_ok_iff.mp opens
    obtain rfl : place = found.1 := Except.ok.inj (meet.first.symm.trans leads)
    refine Or.inl ⟨_, _, rfl, rfl, List.rel_filter ?_ (directories_across linkFree meet stands)⟩
    intro d d' across
    obtain ⟨name?, first, second, -⟩ := descriptorIn_alike linkFree meet across
    simp only [first, second, Option.isSome_map]

/-- Both paths offer candidates of the same shapes. -/
theorem treeCandidates_alike (linkFree : LinkFree disk) (normal : Normal overlay)
    (meet : Meet disk place p p') (seen : SeenAlike overlay p p') (asked : Bool) :
    (treeCandidates disk (overlay.inFrontOf disk.fileSystem) asked p).map (shape disk) =
      (treeCandidates disk (overlay.inFrontOf disk.fileSystem) asked p').map (shape disk) := by
  unfold treeCandidates
  rcases moduleDirs_alike linkFree meet with
    ⟨dirs, dirs', walked, walked', across⟩ | ⟨cause, cause', lost, lost'⟩
  · have offers := map_eq_of_forall₂ across fun d d' across =>
      directoryCandidate?_alike linkFree normal meet seen across asked
    have kept := congrArg (List.filterMap id) offers
    rw [List.filterMap_map, List.filterMap_map] at kept
    simp only [walked, walked', List.map_filterMap]
    exact kept
  · rw [lost, lost']

/-- Both paths are at fault or neither is. -/
theorem treeFault?_alike (linkFree : LinkFree disk) (meet : Meet disk place p p')
    (purpose : Purpose) (raw raw' : String) :
    treeFault? disk purpose raw p = none ↔ treeFault? disk purpose raw' p' = none := by
  unfold treeFault?
  rcases moduleDirs_alike linkFree meet with
    ⟨dirs, dirs', walked, walked', across⟩ | ⟨cause, cause', lost, lost'⟩
  · have faults : dirs.map (fun d => (moduleFault? disk purpose d).isNone) =
        dirs'.map fun d => (moduleFault? disk purpose d).isNone := by
      refine map_eq_of_forall₂ across fun d d' across => ?_
      unfold moduleFault?
      rcases moduleOf_alike linkFree meet across with
        ⟨name, m, -, -, read, read'⟩ | ⟨cause, cause', read, read'⟩
      · rw [read, read']
      · simp only [read, read']
        split <;> rfl
    have sound := congrArg (List.all · id) faults
    simp only [List.all_map, Function.id_comp] at sound
    simpa [walked, walked', List.findSome?_eq_none_iff] using Bool.eq_iff_iff.mp sound
  · rw [lost, lost']
    cases purpose <;> simp

end Trees

/-! ## Patterns -/

/-- A pattern asks for what is in a tree: in a directory that it names or around a file. -/
inductive Asks (settings : Settings) (raw : String) : Purpose → Path → Prop where
  | directory {dir : Path} (read : Pattern.read raw settings.workingDir = .dir dir) :
      Asks settings raw .directory dir
  | file {file dir : Path} (read : Pattern.read raw settings.workingDir = .file file)
      (above : file.parent?.getD settings.workingDir = dir) : Asks settings raw .file dir

section Patterns

variable {disk : Disk} {fs : FileSystem} {settings : Settings} {raw : String} {purpose : Purpose}
  {p : Path}

theorem Asks.fault (asks : Asks settings raw purpose p) :
    patternFault? disk settings raw = treeFault? disk purpose raw p := by
  unfold patternFault?
  cases asks with
  | directory read => rw [read]
  | file read above => rw [read, ← above]

theorem Asks.consult (asks : Asks settings raw purpose p) (g : PackageGraph) :
    consult disk fs settings g raw = (treeCandidates disk fs true p).foldl consider g := by
  unfold PatternRuns.consult
  cases asks with
  | directory read => rw [read]
  | file read above => rw [read, ← above]

theorem Asks.isAbsolute (absolute : settings.workingDir.isAbsolute = true)
    (asks : Asks settings raw purpose p) : p.isAbsolute = true := by
  have made {q : Path} (asked : asked? (Pattern.read raw settings.workingDir) = some q) :
      ∃ cs, (∀ c ∈ cs, IsInner c) ∧ q = .ofComponents (.root :: cs) := by
    obtain ⟨text, rfl⟩ := asked_absolutized asked
    exact absolutize_eq absolute _
  cases asks with
  | directory read =>
    obtain ⟨cs, inner, rfl⟩ := made (congrArg asked? read)
    exact ofComponents_isAbsolute inner
  | file read above =>
    obtain ⟨cs, inner, rfl⟩ := made (congrArg asked? read)
    subst above
    rcases List.eq_nil_or_concat' cs with rfl | ⟨front, c, rfl⟩
    · exact absolute
    · have early : ∀ d ∈ front, IsInner d := fun d member => inner d (List.mem_append_left _ member)
      rw [ofComponents_parent? early (inner c (by simp)), Option.getD_some]
      exact ofComponents_isAbsolute early

end Patterns

/-! ## Queries -/

section Queries

variable {disk : Disk} {settings : Settings} {overlay : Overlay} {purpose : Purpose}
  {raw raw' : String} {p p' : Path} {place : List String}

/-- Of two absolute paths that meet, both see nothing of an overlay with nothing in the place, both keep
a step upwards and see nothing of any, or both spell the place. -/
theorem seen_alike (linkFree : LinkFree disk) (normal : Normal overlay) (absolute : p.isAbsolute = true)
    (absolute' : p'.isAbsolute = true) (meet : Meet disk place p p')
    (seen : Beside overlay (.root :: place.map .name) ∨
      (.parent ∈ p.components ↔ .parent ∈ p'.components)) : SeenAlike overlay p p' := by
  have downward {q : Path} (absolute : q.isAbsolute = true) (leads : disk.resolve {} q = .ok place)
      (down : .parent ∉ q.components) : q.components = .root :: place.map .name :=
    components_of_downward linkFree absolute down leads
  rcases seen with outside | upward
  · have beside {q : Path} (absolute : q.isAbsolute = true) (leads : disk.resolve {} q = .ok place) :
        Beside overlay q.components := by
      by_cases up : .parent ∈ q.components
      · exact beside_of_parent normal up
      · rwa [downward absolute leads up]
    exact .beside (beside absolute meet.first) (beside absolute' meet.second)
  · by_cases up : .parent ∈ p.components
    · exact .beside (beside_of_parent normal up) (beside_of_parent normal (upward.mp up))
    · exact .same ((downward absolute meet.first up).trans
        (downward absolute' meet.second (mt upward.mpr up)).symm)

/-- A pattern among others can be spelled in another way, as far as both spellings lead to one place,
both or neither make a path below it too long, and both or neither keep a step upwards, unless the
overlay has nothing there to be seen. -/
theorem load_spelled_alike (linkFree : LinkFree disk) (normal : Normal overlay)
    (absolute : settings.workingDir.isAbsolute = true) (asks : Asks settings raw purpose p)
    (asks' : Asks settings raw' purpose p') (meet : Meet disk place p p')
    (seen : Beside overlay (.root :: place.map .name) ∨
      (.parent ∈ p.components ↔ .parent ∈ p'.components)) (before after : List String) :
    ((∃ r, load disk settings overlay (before ++ raw :: after) = .ok r) ↔
      ∃ r', load disk settings overlay (before ++ raw' :: after) = .ok r') ∧
    ∀ r r', load disk settings overlay (before ++ raw :: after) = .ok r →
      load disk settings overlay (before ++ raw' :: after) = .ok r' → Respelled disk r r' := by
  have seen := seen_alike linkFree normal (asks.isAbsolute absolute) (asks'.isAbsolute absolute)
    meet seen
  constructor
  · have fault : patternFault? disk settings raw = none ↔ patternFault? disk settings raw' = none := by
      rw [asks.fault, asks'.fault]
      exact treeFault?_alike linkFree meet purpose raw raw'
    simp only [load_eq_ok_iff, exists_and_left, exists_eq', and_true, List.mem_append, List.mem_cons,
      or_imp, forall_and, forall_eq, fault]
  · intro r r' ran ran'
    obtain ⟨-, rfl⟩ := load_eq_ok_iff.mp ran
    obtain ⟨-, rfl⟩ := load_eq_ok_iff.mp ran'
    have candidates := treeCandidates_alike linkFree normal meet seen true
    refine Matching.answer (Matching.considered ?_ rfl) settings
    unfold consulted
    rw [List.foldl_append, List.foldl_append, List.foldl_cons, List.foldl_cons, asks.consult,
      asks'.consult]
    exact ((Matching.refl disk _).considered candidates).consulted after

end Queries

/-! ## Spellings that differ -/

theorem brokenDisk_linkFree : LinkFree brokenDisk := by decide +kernel

theorem mendedOverlay_normal : Normal mendedOverlay := by
  intro key member
  have keys : mendedOverlay.keys = [canonicalPath ["a", "a.gno"]] := by decide
  rw [keys, List.mem_singleton] at member
  exact ⟨["a", "a.gno"], by decide, member⟩

/-- Two ways upwards to one module, among other patterns. -/
theorem module_spelled_upwards : ∃ r r',
    LinkFree brokenDisk ∧ Normal mendedOverlay ∧ sampleSettings.workingDir.isAbsolute = true ∧
    Asks sampleSettings "a/../a/..." .directory ⟨"/a/../a"⟩ ∧
    Asks sampleSettings "/../a/../a" .directory ⟨"/../a/../a"⟩ ∧
    Meet brokenDisk ["a"] ⟨"/a/../a"⟩ ⟨"/../a/../a"⟩ ∧
    (.parent ∈ (Path.mk "/a/../a").components ↔ .parent ∈ (Path.mk "/../a/../a").components) ∧
    load brokenDisk sampleSettings mendedOverlay ([] ++ "a/../a/..." :: ["builtin"]) = .ok r ∧
    load brokenDisk sampleSettings mendedOverlay ([] ++ "/../a/../a" :: ["builtin"]) = .ok r' ∧
    r.packages.map (·.files) = [[⟨"/a/../a/a.gno"⟩], [⟨"/builtin/builtin.gno"⟩]] ∧
    r'.packages.map (·.files) = [[⟨"/../a/../a/a.gno"⟩], [⟨"/builtin/builtin.gno"⟩]] ∧ Respelled brokenDisk r r' := by
  have asks : Asks sampleSettings "a/../a/..." .directory ⟨"/a/../a"⟩ :=
    .directory (by decide +kernel)
  have asks' : Asks sampleSettings "/../a/../a" .directory ⟨"/../a/../a"⟩ :=
    .directory (by decide +kernel)
  have meet : Meet brokenDisk ["a"] ⟨"/a/../a"⟩ ⟨"/../a/../a"⟩ := by decide +kernel
  have upward : .parent ∈ (Path.mk "/a/../a").components ↔
      .parent ∈ (Path.mk "/../a/../a").components := by decide +kernel
  obtain ⟨r, ran, files⟩ : ∃ r,
      load brokenDisk sampleSettings mendedOverlay ([] ++ "a/../a/..." :: ["builtin"]) = .ok r ∧
        r.packages.map (·.files) = [[⟨"/a/../a/a.gno"⟩], [⟨"/builtin/builtin.gno"⟩]] :=
    exists_ok_of_any (by decide +kernel)
  obtain ⟨r', ran', files'⟩ : ∃ r',
      load brokenDisk sampleSettings mendedOverlay ([] ++ "/../a/../a" :: ["builtin"]) = .ok r' ∧
        r'.packages.map (·.files) = [[⟨"/../a/../a/a.gno"⟩], [⟨"/builtin/builtin.gno"⟩]] :=
    exists_ok_of_any (by decide +kernel)
  exact ⟨r, r', brokenDisk_linkFree, mendedOverlay_normal, by decide, asks, asks', meet, upward, ran,
    ran', files, files', (load_spelled_alike brokenDisk_linkFree mendedOverlay_normal (by decide) asks
      asks' meet (Or.inr upward) [] ["builtin"]).2 r r' ran ran'⟩

/-- A detour that just fits has no room for a descriptor behind it. -/
theorem load_long_detour {up : Nat} (short : 3 * up + 2 < maxPathLength)
    (long : maxPathLength ≤ 3 * up + 10) (overlay : Overlay) :
    load brokenDisk sampleSettings overlay [detourPattern up] = .ok (answer sampleSettings {}) := by
  obtain ⟨entries, stands, plain⟩ : ∃ entries, brokenDisk.node? ["a"] = some (.directory entries) ∧
      Node.directoriesIn brokenDisk.refuses ["a"] (detourPath up) entries = [] := ⟨_, rfl, rfl⟩
  have opens : brokenDisk.opened (detourPath up) = .ok (["a"], entries) :=
    opened_eq_ok_iff.mpr ⟨detour_resolve stands short, stands, rfl⟩
  have undescribed : brokenDisk.descriptorIn (detourPath up) = none := by
    refine List.find?_eq_none.mpr fun file listed => ?_
    obtain ⟨name, descriptor, rfl⟩ := List.mem_map.mp listed
    have size : ∀ name ∈ descriptorNames, 7 ≤ name.utf8ByteSize := by decide
    have far : maxPathLength ≤ ((detourPath up).child name).text.utf8ByteSize := by
      have whole := deeper_size (DirectoryWalk.isName_descriptor descriptor) up
      have least := size name descriptor
      change ((detourPath up).child name).text.utf8ByteSize = _ at whole
      omega
    obtain ⟨cause, lost⟩ := resolve_long brokenDisk far
    unfold Disk.isFile Disk.stat
    rw [lost]
    exact Bool.false_ne_true
  have walked : brokenDisk.moduleDirs (detourPath up) = .ok [] := by
    have alone : brokenDisk.directories (detourPath up) = [detourPath up] := by
      rw [directories_eq_directoriesFrom brokenDisk_linkFree (detour_resolve stands short) stands,
        Node.directoriesFrom, plain, ite_self]
    unfold Disk.moduleDirs Disk.listing
    rw [opens, alone]
    simp [undescribed, bind, Except.bind, pure, Except.pure]
  refine load_eq_ok_iff.mpr ⟨fun raw given => ?_, ?_⟩
  · rw [List.mem_singleton.mp given]
    simp only [patternFault?, detour_read, treeFault?, walked, List.findSome?_nil]
  · simp only [gathered, consulted, List.foldl_cons, List.foldl_nil, consult, detour_read,
      treeCandidates, walked, List.filterMap_nil]
    rfl

/-- A step upwards hides the overlay, a detour can get too long for what is in the directory, and one
through a directory that does not exist leads nowhere. -/
theorem spellings_tell_apart :
    LinkFree brokenDisk ∧ Normal mendedOverlay ∧ sampleSettings.workingDir.isAbsolute = true ∧
    (Asks sampleSettings "/a" .directory ⟨"/a"⟩ ∧
      Asks sampleSettings "/a/../a" .directory ⟨"/a/../a"⟩ ∧
      Meet brokenDisk ["a"] ⟨"/a"⟩ ⟨"/a/../a"⟩ ∧
      ∃ r r', load brokenDisk sampleSettings mendedOverlay ["/a"] = .ok r ∧
        load brokenDisk sampleSettings mendedOverlay ["/a/../a"] = .ok r' ∧
        r.packages.map (·.name) = ["x"] ∧ r.packages.map (·.errors.length) = [0] ∧
        r'.packages.map (·.name) = [""] ∧ r'.packages.map (·.errors.length) = [1]) ∧
    (Asks sampleSettings (detourPattern 1364) .directory (detourPath 1364) ∧
      brokenDisk.resolve {} (detourPath 1364) = .ok ["a"] ∧
      ∃ r, load brokenDisk sampleSettings mendedOverlay [detourPattern 1364] = .ok r ∧
        r.packages = []) ∧
    Asks sampleSettings "/b/../a" .directory ⟨"/b/../a"⟩ ∧
      (load brokenDisk sampleSettings mendedOverlay ["/b/../a"]).isOk = false := by
  refine ⟨brokenDisk_linkFree, mendedOverlay_normal, by decide, ⟨.directory (by decide +kernel),
    .directory (by decide +kernel), by decide +kernel, ?_⟩, ⟨.directory (detour_read _ _),
    detour_resolve rfl (by decide), _, load_long_detour (by decide) (by decide) _, rfl⟩,
    .directory (by decide +kernel), by decide +kernel⟩
  obtain ⟨r, ran, seen⟩ : ∃ r, load brokenDisk sampleSettings mendedOverlay ["/a"] = .ok r ∧
      r.packages.map (·.name) = ["x"] ∧ r.packages.map (·.errors.length) = [0] :=
    exists_ok_of_any (by decide +kernel)
  obtain ⟨r', ran', hidden⟩ : ∃ r',
      load brokenDisk sampleSettings mendedOverlay ["/a/../a"] = .ok r' ∧
        r'.packages.map (·.name) = [""] ∧ r'.packages.map (·.errors.length) = [1] :=
    exists_ok_of_any (by decide +kernel)
  exact ⟨r, r', ran, ran', seen.1, seen.2, hidden⟩

end PackageLoader.Spellings
