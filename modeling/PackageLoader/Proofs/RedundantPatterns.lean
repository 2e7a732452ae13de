import Mathlib.Data.String.Basic
import PackageLoader.Proofs.LaterDiscovery
import PackageLoader.Proofs.Subdirectories

/-! A pattern whose candidates were all considered before changes nothing: every path that it claims is
taken, whoever holds it, and the builtin package is marked already. A pattern that was given before is
one, and so is a directory that the walk of another pattern comes through, as long as its path leads
there by the names that the walk adds and can be listed. -/
namespace PackageLoader.RedundantPatterns
open FirstDiscovery LaterDiscovery LinkFreeDisk Linking Offers PathNormalForm PatternRuns
open Subdirectories

section Considering

variable {g : PackageGraph} {cs : List Candidate} {asks : Bool}

/-- Candidates for paths that are claimed come to nothing. -/
theorem considered_claimed (reflects : Reflects g cs asks) {new : List Candidate}
    (claimed : ∀ c ∈ new, c ∈ cs) : new.foldl consider g = g := by
  induction new with
  | nil => rfl
  | cons c rest ih =>
    have taken : g.containsPath c.path = true :=
      (containsPath_iff reflects c.path).mpr ⟨c, claimed c (List.mem_cons_self ..), rfl⟩
    rw [List.foldl_cons, consider, if_pos taken]
    exact ih fun c member => claimed c (List.mem_cons_of_mem _ member)

/-- Whoever holds the builtin path is marked once a `builtin` pattern was seen. -/
theorem markBuiltin_again (reflects : Reflects g cs true) : markBuiltin g = g := by
  unfold markBuiltin
  cases found : g.lookup builtinPath with
  | none => rfl
  | some k =>
    obtain ⟨holder, stands, plain, holds⟩ := (reflects.indexed builtinPath k).mp found
    obtain ⟨c, at_k⟩ := exists_owned reflects stands
    have held : holder = c.package := plain_of_mem_packages (owned_at reflects at_k).2.1 plain
    have path : c.path = builtinPath := (congrArg Package.path held).symm.trans holds
    have root : k ∈ g.roots := (reflects.marked k).mpr ⟨_, at_k, by simp [Candidate.answers, path]⟩
    exact GraphRuns.addRoot_root root

/-- A pattern that offers nothing new leaves the graph as it is. -/
theorem consult_again {disk : Disk} {fs : FileSystem} {settings : Settings} {raw : String}
    (reflects : Reflects g cs asks)
    (offered : ∀ c ∈ patternCandidates disk fs settings raw, c ∈ cs)
    (seen : raw = builtinPath → asks = true) : consult disk fs settings g raw = g := by
  unfold patternCandidates at offered
  unfold consult
  cases read : Pattern.read raw settings.workingDir with
  | builtin =>
    simp only [read] at offered ⊢
    obtain rfl := seen ((read_eq_builtin_iff raw settings.workingDir).mp read)
    have kept : consider g (builtinCandidate settings.builtinDir) = g :=
      considered_claimed reflects offered
    rw [addBuiltin_eq_mark, kept, markBuiltin_again reflects]
  | dir dir =>
    simp only [read] at offered ⊢
    exact considered_claimed reflects offered
  | file file =>
    simp only [read] at offered ⊢
    exact considered_claimed reflects offered

end Considering

section Queries

variable {disk : Disk} {settings : Settings} {overlay : Overlay} {patterns : List String}
  {raw : String}

/-- A pattern that asks for nothing that is not asked for: it was given before, or it names a directory
by the path of one that was given with the names of real directories behind it, and this path and those
on the way to it can be listed. -/
inductive Redundant (disk : Disk) (settings : Settings) (patterns : List String) (raw : String) :
    Prop where
  | given (before : raw ∈ patterns)
  | inside {outer : String} {dir : Path} {names : List String} (before : outer ∈ patterns)
      (whole : Pattern.read outer settings.workingDir = .dir dir)
      (part : Pattern.read raw settings.workingDir = .dir (descend dir names))
      (descends : Descends disk dir names) (passable : Passable disk dir names)
      (listed : (disk.listing (descend dir names)).isOk = true)

/-- What the modules below a real directory offer, the modules below the path offer as well. -/
theorem treeCandidates_descend {fs : FileSystem} {dir : Path} {names : List String}
    (descends : Descends disk dir names) (passable : Passable disk dir names)
    (whole : (disk.listing dir).isOk = true) :
    treeCandidates disk fs true (descend dir names) ⊆ treeCandidates disk fs true dir := by
  have fewer := directories_descend descends passable
  unfold treeCandidates Disk.moduleDirs
  cases listed : disk.listing dir with
  | error cause =>
    rw [listed] at whole
    cases whole
  | ok files =>
    cases disk.listing (descend dir names) with
    | error cause => exact List.nil_subset _
    | ok files' =>
      refine List.filterMap_subset _ fun d member => ?_
      obtain ⟨walked, described⟩ := List.mem_filter.mp member
      exact List.mem_filter.mpr ⟨fewer walked, described⟩

/-- Without a fault before it, a redundant pattern has none and offers nothing new. -/
theorem redundant_offers (fs : FileSystem) (redundant : Redundant disk settings patterns raw)
    (sound : ∀ raw ∈ patterns, patternFault? disk settings raw = none) :
    patternFault? disk settings raw = none ∧
      (patternCandidates disk fs settings raw ⊆
        patterns.flatMap (patternCandidates disk fs settings)) ∧
      (raw = builtinPath → builtinPath ∈ patterns) := by
  cases redundant with
  | given before =>
    exact ⟨sound raw before, fun c member => List.mem_flatMap.mpr ⟨raw, before, member⟩,
      fun builtin => builtin ▸ before⟩
  | @inside outer dir names before whole part descends passable listed =>
    have outerSound := sound outer before
    simp only [patternFault?, whole, treeFault?_directory_iff] at outerSound
    refine ⟨by simp only [patternFault?, part, treeFault?_directory_iff, listed],
      fun c member => ?_, fun builtin => ?_⟩
    · simp only [patternCandidates, part] at member
      refine List.mem_flatMap.mpr ⟨outer, before, ?_⟩
      simp only [patternCandidates, whole]
      exact treeCandidates_descend descends passable outerSound member
    · rw [(read_eq_builtin_iff raw settings.workingDir).mpr builtin] at part
      cases part

theorem consulted_reflects (overlay : Overlay)
    (sound : ∀ raw ∈ patterns, patternFault? disk settings raw = none) :
    Reflects (consulted disk settings overlay patterns)
      (candidates disk { settings with withExamples := false } overlay patterns)
      (patterns.contains builtinPath) := by
  rw [← gathered_bare]
  exact gathered_reflects overlay sound

/-- A redundant pattern behind all others changes nothing about the outcome. -/
theorem load_redundant (redundant : Redundant disk settings patterns raw) :
    load disk settings overlay (patterns ++ [raw]) = load disk settings overlay patterns := by
  rw [load_eq, load_eq, List.findSome?_append]
  cases fault : patterns.findSome? (patternFault? disk settings) with
  | some e => rfl
  | none =>
    have sound := List.findSome?_eq_none_iff.mp fault
    obtain ⟨own, fewer, builtin⟩ := redundant_offers (overlay.inFrontOf disk.fileSystem)
      redundant sound
    have reflects := consulted_reflects overlay sound
    have again : consulted disk settings overlay (patterns ++ [raw]) =
        consulted disk settings overlay patterns := by
      rw [consulted, List.foldl_append]
      refine consult_again reflects (fun c member => ?_) fun same => ?_
      · exact List.mem_append_left _ (List.mem_append_right _ (fewer member))
      · exact List.contains_iff_mem.mpr (builtin same)
    rw [gathered, again]
    simp [own, gathered]

end Queries

/-- A module below a directory that was asked for, and a pattern that was given before. -/
theorem example_redundant : ∃ r,
    Redundant exampleDisk (exampleSettings false) ["/", "builtin"] "/examples/e/..." ∧
    Redundant exampleDisk (exampleSettings false) ["/", "builtin"] "builtin" ∧
    load exampleDisk (exampleSettings false) .empty ["/", "builtin"] = .ok r ∧
    r.roots = ["e", "w", "builtin"] ∧
    load exampleDisk (exampleSettings false) .empty
      (["/", "builtin"] ++ ["/examples/e/..."]) = .ok r ∧
    load exampleDisk (exampleSettings false) .empty (["/", "builtin"] ++ ["builtin"]) = .ok r := by
  have inside : Redundant exampleDisk (exampleSettings false) ["/", "builtin"] "/examples/e/..." := by
    have descends : Descends exampleDisk ⟨"/"⟩ ["examples", "e"] :=
      ⟨by decide, _, _, rfl, rfl⟩
    have passable : Passable exampleDisk ⟨"/"⟩ ["examples", "e"] := by decide +kernel
    exact .inside (List.mem_cons_self ..) (by decide +kernel) (by decide +kernel) descends passable
      (by decide +kernel)
  have given : Redundant exampleDisk (exampleSettings false) ["/", "builtin"] "builtin" :=
    .given (by decide)
  obtain ⟨r, ran, roots⟩ : ∃ r,
      load exampleDisk (exampleSettings false) .empty ["/", "builtin"] = .ok r ∧
        r.roots = ["e", "w", "builtin"] :=
    exists_ok_of_any (by decide +kernel)
  exact ⟨r, inside, given, ran, roots, (load_redundant inside).trans ran,
    (load_redundant given).trans ran⟩

/-! ## Long paths -/

/-- An absolute pattern in normal form is read as it is spelled, unless it ends in a dot. -/
theorem read_spelled {cs : List Component} (inner : ∀ c ∈ cs, IsInner c) (filled : cs ≠ [])
    (undotted : (spelled (cs.map Component.text)).getLast? ≠ some '.') (workingDir : Path) :
    Pattern.read (String.ofList (spelled (cs.map Component.text))) workingDir =
      .dir (.ofComponents (.root :: cs)) := by
  obtain ⟨text, front⟩ : ∃ text, spelled (cs.map Component.text) = '/' :: text := by
    cases cs with
    | nil => exact absurd rfl filled
    | cons c rest => exact ⟨_, rfl⟩
  have directory : Pattern.directoryText ('/' :: text) = '/' :: text := by
    refine if_neg fun dots => undotted ?_
    obtain ⟨before, same⟩ := List.isSuffixOf_iff_suffix.mp dots
    rw [front, ← same, List.getLast?_append]
    rfl
  have builtin : String.ofList ('/' :: text) ≠ builtinPath := by
    intro same
    have heads := congrArg (fun s => s.toList.head?) same
    simp [builtinPath] at heads
  have spells : Spells ⟨String.ofList ('/' :: text)⟩ (cs.map Component.text) :=
    Or.inl ⟨by simpa using filled, by rw [String.toList_ofList, front]⟩
  have inPlace : workingDir.absolutize ⟨String.ofList ('/' :: text)⟩ =
      .ofComponents (.root :: cs) := by
    have kept : cs.filter (· ≠ .current) = cs := List.filter_eq_self.mpr fun c member => by
      rcases inner c member with rfl | ⟨name, -, rfl⟩ <;> rfl
    rw [Path.absolutize, Path.join, if_pos (spells_isAbsolute spells), (spells_steps inner spells).1,
      List.filter_cons_of_pos (by decide), kept]
  rw [front]
  unfold Pattern.read
  simp only [String.toList_ofList, directory, builtin, inPlace]
  rfl

/-- A path that is too long leads nowhere. -/
theorem resolve_long (disk : Disk) {p : Path} (long : Disk.maxPathLength ≤ p.text.utf8ByteSize) :
    ∃ cause, disk.resolve {} p = .error cause := by
  rw [Disk.resolve, if_pos (show p.text.utf8ByteSize ≥ Disk.maxPathLength from long)]
  split
  · exact ⟨_, rfl⟩
  · split <;> exact ⟨_, rfl⟩

/-- A path that is too long is not listed, whatever stands there. -/
theorem listing_long (disk : Disk) {p : Path} (long : Disk.maxPathLength ≤ p.text.utf8ByteSize) :
    (disk.listing p).isOk = false := by
  obtain ⟨cause, lost⟩ := resolve_long disk long
  rw [Disk.listing, Disk.opened, lost]
  rfl

/-- A directory with a directory of a given name. -/
def deepDisk (name : String) : Disk where
  root := [("a", .directory [(name, .directory [])])]
  ordered := .directory (by simp) (by
    simp only [List.mem_singleton, forall_eq]
    refine .directory (by simp) ?_
    simp only [List.mem_singleton, forall_eq]
    exact .directory .nil (by simp))
  workingDir := []

/-- The outer directory, behind some steps up from the root. -/
def detour (up : Nat) : List Component :=
  List.replicate up .parent ++ [.name "a"]

def detourPath (up : Nat) : Path :=
  .ofComponents (.root :: detour up)

theorem detour_inner (up : Nat) : ∀ c ∈ detour up, IsInner c := by
  intro c member
  rcases List.mem_append.mp member with early | last
  · exact Or.inl (List.eq_of_mem_replicate early)
  · exact Or.inr ⟨"a", by decide, List.mem_singleton.mp last⟩

theorem detour_texts (up : Nat) :
    (detour up).map Component.text = List.replicate up ".." ++ ["a"] := by
  rw [detour, List.map_append, List.map_replicate]
  rfl

theorem detourPath_text (up : Nat) :
    (detourPath up).text.toList = spelled (List.replicate up ".." ++ ["a"]) := by
  have early : ∀ c ∈ List.replicate up Component.parent, IsInner c :=
    fun c member => Or.inl (List.eq_of_mem_replicate member)
  have text := ofComponents_text early (c := .name "a") (Or.inr ⟨"a", by decide, rfl⟩)
  rwa [List.map_replicate] at text

/-- Steps up from the root lead nowhere. -/
theorem walkAlong_up (disk : Disk) (how : Disk.Resolution)
    (follow : String → List String → List String → Except StorageError (List String)) (n : Nat)
    (rest : List String) : disk.walkAlong how follow [] (List.replicate n ".." ++ rest) =
      disk.walkAlong how follow [] rest := by
  induction n with
  | zero => rfl
  | succ n ih =>
    have root : disk.node? [] = some (.directory disk.root) := rfl
    rw [List.replicate_succ, List.cons_append, Disk.walkAlong]
    simp only [root, ↓reduceIte, List.dropLast_nil, ih]
    rfl

theorem detour_last (up : Nat) : (spelled (List.replicate up ".." ++ ["a"])).getLast? = some 'a' := by
  rw [spelled_concat, List.getLast?_append]
  rfl

theorem detourPath_size (up : Nat) : (detourPath up).text.utf8ByteSize = 3 * up + 2 := by
  rw [← String.utf8Len_toList, detourPath_text]
  induction up with
  | zero => decide
  | succ up ih =>
    have further : spelled (List.replicate (up + 1) ".." ++ ["a"]) =
        ['/', '.', '.'] ++ spelled (List.replicate up ".." ++ ["a"]) := rfl
    have dots : String.utf8Len ['/', '.', '.'] = 3 := by decide
    rw [further, String.utf8Len_append, ih, dots]
    omega

/-- The detour leads to the outer directory. -/
theorem detour_resolve {disk : Disk} {entries : Entries} (stands : disk.node? ["a"] =
    some (.directory entries)) {up : Nat} (short : 3 * up + 2 < Disk.maxPathLength) :
    disk.resolve {} (detourPath up) = .ok ["a"] := by
  have segments := isSegment_texts (detour_inner up)
  rw [detour_texts] at segments
  have spells : Spells (detourPath up) (List.replicate up ".." ++ ["a"]) :=
    Or.inl ⟨by simp, detourPath_text up⟩
  have steps : Disk.walkSteps (detourPath up).text = List.replicate up ".." ++ ["a"] := by
    have named : (detourPath up).text.toList.getLast? ≠ some '/' := by
      rw [detourPath_text, detour_last]
      decide
    rw [Disk.walkSteps, if_neg named]
    show (detourPath up).segments.map (·.1) = _
    rw [spells_segments segments spells, ends_map_fst]
  have spelling : (detourPath up).text.toList.contains '\x00' = false := by
    rw [detourPath_text, List.contains_eq_mem, decide_eq_false_iff_not]
    intro member
    obtain ⟨segment, listed, inside⟩ := List.mem_flatMap.mp member
    rcases List.mem_append.mp listed with early | last
    · rw [List.eq_of_mem_replicate early] at inside
      exact absurd inside (by decide)
    · rw [List.mem_singleton.mp last] at inside
      exact absurd inside (by decide)
  have size : ¬ (detourPath up).text.utf8ByteSize ≥ Disk.maxPathLength := by
    rw [detourPath_size]
    omega
  obtain ⟨follow, walks⟩ := exists_follow disk {} Disk.maxLinks
  have absolute := spells_isAbsolute spells
  have root : disk.node? [] = some (.directory disk.root) := rfl
  have entry : findEntry "a" disk.root = some (.directory entries) := node?_child root "a" ▸ stands
  have narrow : ¬ "a".utf8ByteSize > Disk.maxNameLength := by decide
  rw [Disk.resolve, spelling, isEmpty_of_isAbsolute absolute, if_neg Bool.false_ne_true,
    if_neg Bool.false_ne_true, if_neg size, absolute, if_pos rfl, walks, steps, walkAlong_up,
    Disk.walkAlong]
  simp only [root, entry, narrow, ↓reduceIte, String.reduceEq, List.nil_append, Disk.walkAlong, stands,
    Option.isSome_some, Bool.or_true]

theorem detour_opened (name : String) {up : Nat} (short : 3 * up + 2 < Disk.maxPathLength) :
    (deepDisk name).opened (detourPath up) = .ok (["a"], [(name, .directory [])]) := by
  have stands : (deepDisk name).node? ["a"] = some (.directory [(name, .directory [])]) := rfl
  exact opened_eq_ok_iff.mpr ⟨detour_resolve stands short, stands, rfl⟩

/-- The path of the outer directory, as a pattern. -/
def detourPattern (up : Nat) : String :=
  String.ofList (spelled ((detour up).map Component.text))

/-- The path of the directory below it, as a pattern. -/
def deeperPattern (up : Nat) (name : String) : String :=
  String.ofList (spelled ((detour up ++ [Component.name name]).map Component.text))

theorem detour_read (up : Nat) (workingDir : Path) :
    Pattern.read (detourPattern up) workingDir = .dir (detourPath up) := by
  have filled : detour up ≠ [] := List.concat_ne_nil _ _
  have undotted : (spelled ((detour up).map Component.text)).getLast? ≠ some '.' := by
    rw [detour_texts, detour_last]
    decide
  exact read_spelled (detour_inner up) filled undotted workingDir

section Deeper

variable {name : String} {up : Nat}

theorem deeper_read (valid : IsName name) (undotted : name.toList.getLast? ≠ some '.') (up : Nat)
    (workingDir : Path) :
    Pattern.read (deeperPattern up name) workingDir = .dir (descend (detourPath up) [name]) := by
  have inner : ∀ c ∈ detour up ++ [Component.name name], IsInner c := by
    intro c member
    rcases List.mem_append.mp member with early | last
    · exact detour_inner up c early
    · exact Or.inr ⟨name, valid, List.mem_singleton.mp last⟩
  have ends : (spelled ((detour up ++ [Component.name name]).map Component.text)).getLast? ≠
      some '.' := by
    have named : name.toList ≠ [] := by simpa using valid.toIsSegment.filled
    rw [List.map_append, List.map_singleton, spelled_concat, List.getLast?_append,
      List.getLast?_cons, show (Component.name name).text = name from rfl,
      List.getLast?_eq_some_getLast named]
    rwa [List.getLast?_eq_some_getLast named] at undotted
  have read := read_spelled inner (List.concat_ne_nil _ _) ends workingDir
  rw [← List.cons_append, ofComponents_concat] at read
  exact read

theorem deeper_size (valid : IsName name) (up : Nat) :
    (descend (detourPath up) [name]).text.utf8ByteSize = 3 * up + 3 + name.utf8ByteSize := by
  have filled : (detourPath up).text.toList ≠ [] := by
    rw [detourPath_text, spelled_concat]
    exact List.append_ne_nil_of_right_ne_nil _ (List.cons_ne_nil _ _)
  have whole := detourPath_size up
  have separator : '/'.utf8Size = 1 := by decide
  obtain ⟨front, text, before⟩ := child_text filled valid.toIsSegment
  rcases before with same | same
  · have below : (descend (detourPath up) [name]).text.toList = front ++ '/' :: name.toList := text
    rw [← String.utf8Len_toList, same] at whole
    rw [← String.utf8Len_toList, below, String.utf8Len_append, whole, String.utf8Len_cons,
      String.utf8Len_toList, separator]
    omega
  · have last := detour_last up
    rw [← detourPath_text, same, List.getLast?_concat] at last
    cases last

/-- A directory that can be listed has one below it that is a fault, where its path gets too long. -/
theorem deeper_faults (valid : IsName name) (undotted : name.toList.getLast? ≠ some '.')
    (short : 3 * up + 2 < Disk.maxPathLength)
    (long : Disk.maxPathLength ≤ 3 * up + 3 + name.utf8ByteSize) (settings : Settings)
    (overlay : Overlay) :
    Descends (deepDisk name) (detourPath up) [name] ∧
      (load (deepDisk name) settings overlay [detourPattern up]).isOk = true ∧
      (load (deepDisk name) settings overlay ([detourPattern up] ++ [deeperPattern up name])).isOk =
        false := by
  have opens := detour_opened name short
  obtain ⟨leads, stands, -⟩ := opened_eq_ok_iff.mp opens
  have below : ¬ ((deepDisk name).listing (descend (detourPath up) [name])).isOk = true := by
    rw [listing_long _ (deeper_size valid up ▸ long)]
    exact Bool.false_ne_true
  have sound : patternFault? (deepDisk name) settings (detourPattern up) = none := by
    simp only [patternFault?, detour_read, treeFault?_directory_iff]
    exact listing_isOk.mpr ⟨_, _, opens⟩
  have faulty : patternFault? (deepDisk name) settings (deeperPattern up name) ≠ none := by
    simp only [patternFault?, deeper_read valid undotted, ne_eq, treeFault?_directory_iff]
    exact below
  refine ⟨⟨fun n member => List.mem_singleton.mp member ▸ valid, _, [],
    stat_eq_ok_iff.mpr ⟨_, leads, stands⟩, ?_⟩, ?_, ?_⟩
  · simp [Node.at?, findEntry, Std.ReflOrd.compare_self]
  · rw [load_eq_ok_iff.mpr ⟨fun raw member => List.mem_singleton.mp member ▸ sound, rfl⟩]
    rfl
  · cases ran : load (deepDisk name) settings overlay
        ([detourPattern up] ++ [deeperPattern up name]) with
    | error e => rfl
    | ok r =>
      exact absurd ((load_eq_ok_iff.mp ran).1 _
        (List.mem_append_right _ (List.mem_singleton_self _))) faulty

end Deeper

/-- A name of a given length. -/
def longName (length : Nat) : String :=
  String.ofList (List.replicate length 'b')

theorem longName_text (length : Nat) : (longName length).toList = List.replicate length 'b' :=
  String.toList_ofList

theorem longName_valid {length : Nat} (filled : 0 < length) : IsName (longName length) := by
  have other {name : String} (differs : name.toList.head? ≠ some 'b') : longName length ≠ name := by
    rintro rfl
    refine differs ?_
    rw [longName_text, List.head?_replicate, if_neg (by omega)]
  refine ⟨⟨other (by decide), fun member => ?_⟩, other (by decide), other (by decide)⟩
  rw [longName_text] at member
  cases List.eq_of_mem_replicate member

theorem longName_undotted (length : Nat) : (longName length).toList.getLast? ≠ some '.' := by
  rw [longName_text, List.getLast?_replicate]
  split
  · exact fun same => nomatch same
  · exact fun same => absurd (Option.some.inj same) (by decide)

theorem longName_size (length : Nat) : (longName length).utf8ByteSize = length := by
  have character : 'b'.utf8Size = 1 := by decide
  rw [← String.utf8Len_toList, longName_text]
  induction length with
  | zero => rfl
  | succ length ih => rw [List.replicate_succ, String.utf8Len_cons, ih, character]

/-- A module whose only source is unsaved. -/
def unsavedDisk : Disk where
  root := [("a", .directory [("gno.mod", .file (Text.utf8Bytes "module a\n"))])]
  ordered := .directory (by simp) (by
    simp only [List.mem_singleton, forall_eq]
    refine .directory (by simp) ?_
    simp only [List.mem_singleton, forall_eq]
    exact .file _)
  workingDir := []

def unsavedOverlay : Overlay :=
  .ofList [(⟨"/a/a.gno"⟩, Text.utf8Bytes "package a\n")]

/-- A module below a directory that cannot be listed. -/
def lockedDisk : Disk where
  root := [("a", .directory [("b", .directory [
    ("b.gno", .file (Text.utf8Bytes "package b\n")),
    ("gno.mod", .file (Text.utf8Bytes "module b\n"))])])]
  ordered := by decide
  workingDir := []
  refuses := fun location => location == ["a"]

/-- A real directory below one that was asked for is redundant only if it is named by the path that the
walk comes through, and if this path and those on the way to it can be listed. One that is too long is a
fault, one that leads there in another way finds what was passed over, and so does one that leads through
a directory which cannot be listed. -/
theorem redundancy_needs_the_path :
    (Pattern.read (detourPattern 1300) sampleSettings.workingDir = .dir (detourPath 1300) ∧
      Pattern.read (deeperPattern 1300 (longName 200)) sampleSettings.workingDir =
        .dir (descend (detourPath 1300) [longName 200]) ∧
      Descends (deepDisk (longName 200)) (detourPath 1300) [longName 200] ∧
      (load (deepDisk (longName 200)) sampleSettings .empty [detourPattern 1300]).isOk = true ∧
      (load (deepDisk (longName 200)) sampleSettings .empty
        ([detourPattern 1300] ++ [deeperPattern 1300 (longName 200)])).isOk = false) ∧
    (∃ location, unsavedDisk.resolve {} ⟨"/a/.."⟩ = .ok location ∧
      unsavedDisk.resolve {} ⟨"/a"⟩ = .ok (location ++ ["a"]) ∧
      kind? unsavedDisk (location ++ ["a"]) = some .directory) ∧
    (∃ r r', load unsavedDisk sampleSettings unsavedOverlay ["/a/.."] = .ok r ∧
      load unsavedDisk sampleSettings unsavedOverlay (["/a/.."] ++ ["/a"]) = .ok r' ∧
      r.roots = [] ∧ r'.roots = ["a"]) ∧
    (Pattern.read "/" sampleSettings.workingDir = .dir ⟨"/"⟩ ∧
      Pattern.read "/a/b" sampleSettings.workingDir = .dir (descend ⟨"/"⟩ ["a", "b"]) ∧
      Descends lockedDisk ⟨"/"⟩ ["a", "b"] ∧
      (lockedDisk.listing (descend ⟨"/"⟩ ["a", "b"])).isOk = true) ∧
    ∃ r r', load lockedDisk sampleSettings .empty ["/"] = .ok r ∧
      load lockedDisk sampleSettings .empty (["/"] ++ ["/a/b"]) = .ok r' ∧
      r.roots = [] ∧ r'.roots = ["b"] := by
  obtain ⟨r, ran, none⟩ : ∃ r,
      load unsavedDisk sampleSettings unsavedOverlay ["/a/.."] = .ok r ∧ r.roots = [] :=
    exists_ok_of_any (by decide +kernel)
  obtain ⟨r', ran', found⟩ : ∃ r',
      load unsavedDisk sampleSettings unsavedOverlay (["/a/.."] ++ ["/a"]) = .ok r' ∧
        r'.roots = ["a"] :=
    exists_ok_of_any (by decide +kernel)
  have valid : IsName (longName 200) := longName_valid (by decide)
  have undotted := longName_undotted 200
  have long : Disk.maxPathLength ≤ 3 * 1300 + 3 + (longName 200).utf8ByteSize := by
    rw [longName_size]
    decide
  obtain ⟨s, passed, missed⟩ : ∃ s,
      load lockedDisk sampleSettings .empty ["/"] = .ok s ∧ s.roots = [] :=
    exists_ok_of_any (by decide +kernel)
  obtain ⟨s', asked, reached⟩ : ∃ s',
      load lockedDisk sampleSettings .empty (["/"] ++ ["/a/b"]) = .ok s' ∧ s'.roots = ["b"] :=
    exists_ok_of_any (by decide +kernel)
  have inner : Descends lockedDisk ⟨"/"⟩ ["a", "b"] := ⟨by decide, _, _, rfl, rfl⟩
  exact ⟨⟨detour_read _ _, deeper_read valid undotted _ _,
    deeper_faults valid undotted (by decide) long _ _⟩,
    ⟨[], by decide +kernel⟩, ⟨r, r', ran, ran', none, found⟩,
    ⟨by decide +kernel, by decide +kernel, inner, by decide +kernel⟩,
    s, s', passed, asked, missed, reached⟩

end PackageLoader.RedundantPatterns
