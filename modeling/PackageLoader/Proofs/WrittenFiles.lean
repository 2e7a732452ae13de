import PackageLoader.Proofs.LinkFreeDisk
import PackageLoader.Proofs.TableLaws
import PackageLoader.Query.Load

/-! Files written to a disk without links. Writing a file where its directory stands changes what is
at that location and whether it can be read, and nothing else: no other location, no directory, and no
list of directories. An overlay whose files are all written is the overlay in front of what was there before. -/
namespace PackageLoader.WrittenFiles
open Disk PathNormalForm LinkFreeDisk TableLaws

/-! ## One entry -/

/-- The directories that a walk comes through at and below what stands somewhere, if anything does. -/
def directoriesAt (refuses : List String → Bool) (here : List String) (path : Path)
    (node? : Option Node) : List Path :=
  node?.elim [] (Node.directoriesFrom refuses here path)

/-- Changing an entry without changing its directories. -/
theorem directoriesIn_alterEntry {refuses : List String → Bool} {here : List String} {name : String}
    {change : Option Node → Option Node} {entries : Entries} (ascending : entries.Pairwise KeyBefore)
    (path : Path)
    (same : directoriesAt refuses (here ++ [name]) (path.child name) (change (findEntry name entries)) =
      directoriesAt refuses (here ++ [name]) (path.child name) (findEntry name entries)) :
    Node.directoriesIn refuses here path (alterEntry name change entries) =
      Node.directoriesIn refuses here path entries := by
  induction entries with
  | nil =>
    rw [findEntry] at same
    cases made : change none with
    | none => simp [alterEntry, made]
    | some node =>
      rw [made] at same
      simpa [alterEntry, made, Node.directoriesIn, Node.directoriesOf, directoriesAt] using same
  | cons head rest ih =>
    obtain ⟨k, v⟩ := head
    have restAscending := (List.pairwise_cons.mp ascending).2
    rw [alterEntry]
    split
    · rename_i less
      rw [findEntry_less ascending less] at same
      cases made : change none with
      | none => simp
      | some node =>
        rw [made] at same
        simpa [Node.directoriesIn, Node.directoriesOf, directoriesAt] using same
    · rename_i equal
      have found : findEntry name ((k, v) :: rest) = some v := by rw [findEntry, if_pos equal]
      rw [found] at same
      cases Std.LawfulEqCmp.eq_of_compare equal
      cases made : change (some v) with
      | none =>
        rw [made] at same
        simpa [Node.directoriesIn, Node.directoriesOf, directoriesAt] using same
      | some node =>
        rw [made] at same
        simpa [Node.directoriesIn, Node.directoriesOf, directoriesAt] using same
    · rename_i greater
      have later : findEntry name ((k, v) :: rest) = findEntry name rest := by
        rw [findEntry, greater]
        rfl
      rw [later] at same
      rw [Node.directoriesIn, Node.directoriesIn, ih restAscending same]

/-! ## One file -/

/-- There is a file with the given bytes at the location, and elsewhere all is as before. -/
structure Wrote (bytes : Text.Bytes) (location : List String) (before after : Option Node) : Prop where
  kinds : ∀ other, (after.bind (·.at? other)).map kind =
    if other = location then some (.file bytes) else (before.bind (·.at? other)).map kind
  directories : ∀ refuses here other path, directoriesAt refuses here path (after.bind (·.at? other)) =
    directoriesAt refuses here path (before.bind (·.at? other))

theorem at?_nil (node? : Option Node) : node?.bind (·.at? []) = node? := by
  cases node? <;> rfl

theorem wrote_here {bytes : Text.Bytes} {before : Option Node}
    (target : ∀ node, before = some node → ∃ old, node = .file old) :
    Wrote bytes [] before (some (.file bytes)) := by
  have absent {name : String} {rest : List String} :
      (before.bind (·.at? (name :: rest))) = none := by
    cases before with
    | none => rfl
    | some node =>
      obtain ⟨old, rfl⟩ := target node rfl
      rfl
  constructor
  · intro other
    cases other with
    | nil => rfl
    | cons name rest => simp [Node.at?, absent]
  · intro refuses here other path
    cases other with
    | nil =>
      cases before with
      | none => rfl
      | some node =>
        obtain ⟨old, rfl⟩ := target node rfl
        rfl
    | cons name rest => simp [Node.at?, absent]

/-- Writing into an entry writes into its directory. -/
theorem wrote_entry {bytes : Text.Bytes} {name : String} {location : List String}
    {change : Option Node → Option Node} {entries : Entries}
    (ascending : entries.Pairwise KeyBefore)
    (inner : Wrote bytes location (findEntry name entries) (change (findEntry name entries))) :
    Wrote bytes (name :: location) (some (.directory entries))
      (some (.directory (alterEntry name change entries))) := by
  have entry (probe : String) : findEntry probe (alterEntry name change entries) =
      if compare probe name = .eq then change (findEntry name entries)
      else findEntry probe entries :=
    findEntry_alterEntry ascending probe
  constructor
  · intro other
    cases other with
    | nil => rfl
    | cons probe rest =>
      simp only [Option.bind_some, Node.at?, entry, Std.compare_eq_iff_eq]
      by_cases same : probe = name
      · subst same
        simpa using inner.kinds rest
      · simp [same]
  · intro refuses here other path
    cases other with
    | nil =>
      have same := inner.directories refuses (here ++ [name]) [] (path.child name)
      simp only [at?_nil] at same
      simp [Node.at?, directoriesAt, Node.directoriesFrom,
        directoriesIn_alterEntry ascending path same]
    | cons probe rest =>
      simp only [Option.bind_some, Node.at?, entry, Std.compare_eq_iff_eq]
      by_cases same : probe = name
      · subst same
        simpa using inner.directories refuses here rest path
      · simp [same]

/-- Writing a file where its directory stands. -/
theorem wrote_alterAt {bytes : Text.Bytes} {names : List String} {last : String} {node : Node}
    (ordered : node.Ordered) {entries : Entries}
    (home : node.at? names = some (.directory entries))
    (target : ∀ old, findEntry last entries = some old → ∃ b, old = .file b) :
    Wrote bytes (names ++ [last]) (some node)
      (Node.alterAt (fun _ => some (.file bytes)) (names ++ [last]) (some node)) := by
  induction names generalizing node with
  | nil =>
    cases home
    cases ordered with
    | directory ascending inner => exact wrote_entry ascending (wrote_here target)
  | cons name rest ih =>
    cases node with
    | directory outer =>
      cases ordered with
      | directory ascending inner =>
        obtain ⟨next, found, below⟩ := Option.bind_eq_some_iff.mp home
        refine wrote_entry ascending ?_
        rw [found]
        obtain ⟨_, member, -⟩ := mem_of_findEntry found
        exact ih (inner _ member) below
    | _ => cases home

/-! ## One path -/

/-- An absolute path in normal form to a file that can be written: its directory stands, and nothing
or another file is in its place. It is no descriptor. -/
inductive Writable (disk : Disk) : Path → Prop where
  | file {names : List String} {last : String} (valid : ∀ name ∈ names, IsName name)
      (final : IsName last) (fits : Fits (canonicalPath (names ++ [last])))
      (home : kind? disk names = some .directory)
      (target : ∀ kind, kind? disk (names ++ [last]) = some kind → ∃ bytes, kind = .file bytes)
      (other : last ∉ descriptorNames) : Writable disk (canonicalPath (names ++ [last]))

/-- Where a path in normal form can be written there is nothing but perhaps a file, and no descriptor. -/
theorem writable_location {disk : Disk} {location : List String}
    (valid : ∀ name ∈ location, IsName name) (given : Writable disk (canonicalPath location)) :
    (∀ kind, kind? disk location = some kind → ∃ bytes, kind = .file bytes) ∧
      ∀ name ∈ descriptorNames, location.getLast? ≠ some name := by
  generalize same : canonicalPath location = p at given
  cases given with
  | @file names last valid' final fits home target other =>
    cases canonicalPath_injective valid (names_concat valid' final) same
    refine ⟨target, fun name descriptor equal => ?_⟩
    rw [List.getLast?_concat, Option.some.injEq] at equal
    exact other (equal ▸ descriptor)

theorem putFile_wrote {disk : Disk} (linkFree : LinkFree disk) {names : List String} {last : String}
    (valid : ∀ name ∈ names, IsName name) (final : IsName last)
    (fits : Fits (canonicalPath (names ++ [last]))) (home : kind? disk names = some .directory)
    (target : ∀ kind, kind? disk (names ++ [last]) = some kind → ∃ bytes, kind = .file bytes)
    (bytes : Text.Bytes) :
    let after := disk.putFile (canonicalPath (names ++ [last])) bytes
    after.workingDir = disk.workingDir ∧
      (∀ other, after.refuses other = (other != names ++ [last] && disk.refuses other)) ∧
      Wrote bytes (names ++ [last]) (some (.directory disk.root)) (some (.directory after.root)) := by
  have arrives := @resolve_fits disk linkFree { mayMiss := true } names last valid final fits home
    (Or.inl rfl)
  obtain ⟨entries, node⟩ := kind?_directory.mp home
  have free : ∀ old, findEntry last entries = some old → ∃ b, old = .file b := by
    intro old found
    rw [← node?_child node last] at found
    obtain ⟨b, same⟩ := target (kind old) (by rw [kind?, found]; rfl)
    cases old with
    | file b => exact ⟨b, rfl⟩
    | _ => cases same
  have wrote := @wrote_alterAt bytes names last _ disk.ordered _ node free
  unfold putFile
  simp only [arrives]
  cases names with
  | nil => exact ⟨rfl, fun _ => trivial, wrote⟩
  | cons name rest => exact ⟨rfl, fun _ => trivial, wrote⟩

section Put

variable {disk : Disk} {p : Path}

theorem putFile_workingDir (linkFree : LinkFree disk) (writable : Writable disk p)
    (bytes : Text.Bytes) : (disk.putFile p bytes).workingDir = disk.workingDir := by
  cases writable with
  | file names final fits home target other =>
    exact (putFile_wrote linkFree names final fits home target bytes).1

theorem putFile_directories (linkFree : LinkFree disk) (writable : Writable disk p)
    (bytes : Text.Bytes) (location : List String) (path : Path) :
    directoriesAt (disk.putFile p bytes).refuses location path
        ((disk.putFile p bytes).node? location) =
      directoriesAt disk.refuses location path (disk.node? location) := by
  cases writable with
  | @file names last valid final fits home target other =>
    obtain ⟨-, refuses, wrote⟩ := putFile_wrote linkFree valid final fits home target bytes
    refine (wrote.directories _ location location path).trans ?_
    -- No directory is written to, so the walk meets no refusal that has changed.
    have agree : ∀ place, kind? disk place = some .directory →
        (disk.putFile (canonicalPath (names ++ [last])) bytes).refuses place = disk.refuses place := by
      intro place directory
      have apart : place ≠ names ++ [last] := by
        rintro rfl
        obtain ⟨b, impossible⟩ := target _ directory
        cases impossible
      rw [refuses, bne_iff_ne.mpr apart, Bool.true_and]
    change directoriesAt _ _ _ (disk.node? location) = _
    cases stands : disk.node? location with
    | none => rfl
    | some node => exact directoriesFrom_congr agree node stands

theorem putFile_refuses (linkFree : LinkFree disk) (writable : Writable disk p) (bytes : Text.Bytes)
    {location : List String} (valid : ∀ name ∈ location, IsName name) :
    (disk.putFile p bytes).refuses location =
      if compare (canonicalPath location) p = .eq then false else disk.refuses location := by
  cases writable with
  | file names final fits home target other =>
    obtain ⟨-, refuses, -⟩ := putFile_wrote linkFree names final fits home target bytes
    simp only [compare_canonicalPath valid (names_concat names final), refuses]
    split <;> simp_all

theorem putFile_kinds (linkFree : LinkFree disk) (writable : Writable disk p) (bytes : Text.Bytes)
    {location : List String} (valid : ∀ name ∈ location, IsName name) :
    kind? (disk.putFile p bytes) location =
      if compare (canonicalPath location) p = .eq then some (.file bytes)
      else kind? disk location := by
  cases writable with
  | file names final fits home target other =>
    obtain ⟨-, -, wrote⟩ := putFile_wrote linkFree names final fits home target bytes
    simp only [compare_canonicalPath valid (names_concat names final)]
    exact wrote.kinds location

theorem putFile_linkFree (linkFree : LinkFree disk) (writable : Writable disk p)
    (bytes : Text.Bytes) : LinkFree (disk.putFile p bytes) := by
  cases writable with
  | file names final fits home target other =>
    obtain ⟨-, -, wrote⟩ := putFile_wrote linkFree names final fits home target bytes
    intro location kind stands
    have kinds := wrote.kinds location
    change kind? _ location = _ at kinds
    rw [kinds] at stands
    split at stands
    · rename_i same
      cases stands
      exact ⟨same ▸ names_concat names final, fun target same => by cases same⟩
    · exact linkFree location kind stands

/-- Writing one file gets in the way of no other. -/
theorem putFile_writable (linkFree : LinkFree disk) (writable : Writable disk p) (bytes : Text.Bytes)
    {q : Path} (next : Writable disk q) : Writable (disk.putFile p bytes) q := by
  have kinds {location : List String} (valid : ∀ name ∈ location, IsName name) :=
    putFile_kinds linkFree writable bytes valid
  cases next with
  | @file names last valid final fits home target other =>
    refine .file valid final fits ?_ ?_ other
    · rw [kinds valid]
      split
      · rename_i same
        cases writable with
        | file valid' final' fits' home' target' other' =>
          rw [compare_canonicalPath valid (names_concat valid' final')] at same
          obtain ⟨b, impossible⟩ := target' _ (same ▸ home)
          cases impossible
      · exact home
    · intro kind stands
      rw [kinds (names_concat valid final)] at stands
      split at stands
      · cases stands
        exact ⟨bytes, rfl⟩
      · exact target kind stands

end Put

/-! ## An overlay -/

/-- The disk with the contents of the overlay written to it, one file after the other. -/
def writtenTo (overlay : Overlay) (disk : Disk) : Disk :=
  overlay.entries.foldl (fun disk e => disk.putFile e.1 e.2) disk

/-- The large disk is the small one with the files of an overlay. -/
structure Written (files : List (Path × Text.Bytes)) (small large : Disk) : Prop where
  linkFree : LinkFree large
  workingDir : large.workingDir = small.workingDir
  kinds : ∀ location, (∀ name ∈ location, IsName name) → kind? large location =
    ((findEntry (canonicalPath location) files).map Kind.file).or (kind? small location)
  refuses : ∀ location, (∀ name ∈ location, IsName name) → large.refuses location =
    ((findEntry (canonicalPath location) files).isNone && small.refuses location)
  directories : ∀ location path,
    directoriesAt large.refuses location path (large.node? location) =
      directoriesAt small.refuses location path (small.node? location)

theorem written_files {files : List (Path × Text.Bytes)} (ascending : files.Pairwise KeyBefore)
    {disk : Disk} (linkFree : LinkFree disk) (writable : ∀ e ∈ files, Writable disk e.1) :
    Written files disk (files.foldl (fun disk e => disk.putFile e.1 e.2) disk) := by
  induction files generalizing disk with
  | nil => exact ⟨linkFree, rfl, fun _ _ => rfl, fun _ _ => rfl, fun _ _ => rfl⟩
  | cons head rest ih =>
    have restAscending := (List.pairwise_cons.mp ascending).2
    have first := writable head (List.mem_cons_self ..)
    have later := ih restAscending (putFile_linkFree linkFree first head.2) fun e member =>
      putFile_writable linkFree first head.2 (writable e (List.mem_cons_of_mem _ member))
    refine ⟨later.linkFree, later.workingDir.trans (putFile_workingDir linkFree first head.2), ?_, ?_, ?_⟩
    · intro location valid
      rw [List.foldl_cons, later.kinds location valid, putFile_kinds linkFree first head.2 valid,
        findEntry]
      by_cases same : compare (canonicalPath location) head.1 = .eq
      · simp [same, findEntry_rest ascending same]
      · simp [same]
    · intro location valid
      rw [List.foldl_cons, later.refuses location valid, putFile_refuses linkFree first head.2 valid,
        findEntry]
      by_cases same : compare (canonicalPath location) head.1 = .eq
      · simp [same]
      · simp [same]
    · intro location path
      exact (later.directories location path).trans
        (putFile_directories linkFree first head.2 location path)

section Overlaid

variable {overlay : Overlay} {disk : Disk}

theorem written_overlay (linkFree : LinkFree disk)
    (writable : ∀ key ∈ overlay.keys, Writable disk key) :
    Written overlay.entries disk (writtenTo overlay disk) :=
  written_files overlay.ascending linkFree fun _ member => writable _ (List.mem_map_of_mem member)

/-- The keys are the paths in normal form that have contents in the overlay. -/
theorem mem_keys_iff_get? (writable : ∀ key ∈ overlay.keys, Writable disk key)
    {location : List String} (valid : ∀ name ∈ location, IsName name) :
    canonicalPath location ∈ overlay.keys ↔
      (findEntry (canonicalPath location) overlay.entries).isSome := by
  rw [Option.isSome_iff_exists]
  constructor
  · intro member
    exact exists_findEntry member Std.ReflOrd.compare_self
  · rintro ⟨bytes, found⟩
    obtain ⟨key, member, same⟩ := mem_of_findEntry found
    have listed : key ∈ overlay.keys := List.mem_map_of_mem member
    cases writable key listed with
    | @file home last valid' final fits stands target other =>
      rw [compare_canonicalPath valid (names_concat valid' final)] at same
      exact same ▸ listed

/-- What has contents in the overlay can be written. -/
theorem writable_of_get? (writable : ∀ key ∈ overlay.keys, Writable disk key)
    {location : List String} (valid : ∀ name ∈ location, IsName name) {bytes : Text.Bytes}
    (found : findEntry (canonicalPath location) overlay.entries = some bytes) :
    Writable disk (canonicalPath location) := by
  apply writable
  rw [mem_keys_iff_get? writable valid, found]
  rfl

theorem written_extends (linkFree : LinkFree disk)
    (writable : ∀ key ∈ overlay.keys, Writable disk key) :
    Extends disk (writtenTo overlay disk) := by
  have written := written_overlay linkFree writable
  refine ⟨linkFree, written.linkFree, written.workingDir, fun location => ?_, fun location stands => ?_⟩
  · constructor
    · intro directory
      have valid := (written.linkFree _ _ directory).1
      rw [written.kinds location valid] at directory
      cases found : findEntry (canonicalPath location) overlay.entries with
      | none => simpa [found] using directory
      | some bytes => simp [found] at directory
    · intro directory
      have valid := (linkFree _ _ directory).1
      rw [written.kinds location valid]
      cases found : findEntry (canonicalPath location) overlay.entries with
      | none => simpa using directory
      | some bytes =>
        obtain ⟨b, impossible⟩ :=
          (writable_location valid (writable_of_get? writable valid found)).1 _ directory
        cases impossible
  · obtain ⟨kind, found⟩ := Option.isSome_iff_exists.mp stands
    rw [written.kinds location (linkFree _ _ found).1, found]
    cases findEntry (canonicalPath location) overlay.entries <;> rfl

end Overlaid

end PackageLoader.WrittenFiles
