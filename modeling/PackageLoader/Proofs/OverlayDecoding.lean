import PackageLoader.Proofs.PathNormalForm
import PackageLoader.Proofs.RequestReading

/-! What becomes of the members of an overlay. They are gathered by path before any of them is decoded,
so only the last text of a path counts, the first path that cannot be decoded is the one that is blamed,
and members of different paths may stand in any order. -/
namespace PackageLoader.OverlayDecoding
open Json Text Request Utf8Text JsonGrammar TableLaws TableListing RequestReading

/-! ## Members by path -/

/-- The members for a path under whatever spelling. -/
def membersFor (path : Path) (entries : List (Path × String)) : List (Path × String) :=
  entries.filter fun e => path.same e.1

/-- The text that is given last for a path. -/
def lastText? (path : Path) (entries : List (Path × String)) : Option String :=
  (membersFor path entries).getLast?.map (·.2)

/-- The spelling of a path that is given first. -/
def firstSpelling? (path : Path) (entries : List (Path × String)) : Option Path :=
  (membersFor path entries).head?.map (·.1)

/-- The last text for a path is not the canonical form of any bytes. -/
def Spoilt (entries : List (Path × String)) (path : Path) : Prop :=
  ∃ text, lastText? path entries = some text ∧ ∀ bytes, text ≠ String.ofList (Base64.encode bytes)

/-- The least path that is spoilt, in its first spelling. -/
structure Blamed (entries : List (Path × String)) (file : Path) : Prop where
  spoilt : Spoilt entries file
  first : firstSpelling? file entries = some file
  least : ∀ path, Spoilt entries path → (compare file path).isLE

/-- An overlay of what the last texts stand for, with the first spellings. -/
structure Decoded (entries : List (Path × String)) (overlay : Overlay) : Prop where
  keys : ∀ key, key ∈ overlay.keys ↔ firstSpelling? key entries = some key
  contents : ∀ path bytes, overlay.get? path = some bytes ↔
    lastText? path entries = some (String.ofList (Base64.encode bytes))

theorem membersFor_eq (path : Path) (entries : List (Path × String)) :
    membersFor path entries = entriesFor path entries := by
  refine List.filter_congr fun e _ => ?_
  rw [Path.same, beq_eq_decide]
  refine decide_eq_decide.mpr ?_
  show path.components = e.1.components ↔ compare path.components e.1.components = .eq
  rw [Std.LawfulEqCmp.compare_eq_iff_eq]

section Gathered

variable {entries : List (Path × String)}

theorem lastText?_eq (path : Path) :
    lastText? path entries = (Table.ofList entries).get? path := by
  rw [lastText?, membersFor_eq, get?_ofList_last]

theorem firstSpelling?_eq_some_iff {key : Path} :
    firstSpelling? key entries = some key ↔ key ∈ (Table.ofList entries).keys := by
  rw [firstSpelling?, membersFor_eq, mem_keys_ofList_first]

end Gathered

/-! ## Decoding -/

/-- Either everything is decoded, or the first text that cannot be is blamed on its path. -/
theorem mapM_decodeContents_cases (entries : List (Path × String)) :
    (∃ files, entries = files.map encodedFile ∧ entries.mapM decodeContents = .ok files) ∨
      ∃ front e back, entries = front ++ e :: back ∧
        (∀ other ∈ front, ∃ bytes, other.2 = String.ofList (Base64.encode bytes)) ∧
        (∀ bytes, e.2 ≠ String.ofList (Base64.encode bytes)) ∧
        entries.mapM decodeContents = .error (.wrongContents e.1) := by
  induction entries with
  | nil => exact Or.inl ⟨[], rfl, rfl⟩
  | cons e entries ih =>
    cases decoded : Base64.decode? e.2.toList with
    | none =>
      refine Or.inr ⟨[], e, entries, rfl, List.forall_mem_nil _, fun bytes same => ?_, ?_⟩
      · rw [same, String.toList_ofList, Base64Text.decode?_encode] at decoded
        cases decoded
      · rw [List.mapM_cons, decodeContents, decoded]
        rfl
    | some bytes =>
      have canonical : e.2 = String.ofList (Base64.encode bytes) := by
        rw [← Base64Text.encode_of_decode? decoded, String.ofList_toList]
      have own : decodeContents e = .ok (e.1, bytes) := by rw [decodeContents, decoded]
      rcases ih with ⟨files, rfl, all⟩ | ⟨front, bad, back, rfl, good, spoilt, blamed⟩
      · refine Or.inl ⟨(e.1, bytes) :: files, ?_, ?_⟩
        · rw [List.map_cons, encodedFile, ← canonical]
        · rw [List.mapM_cons, own, all]
          rfl
      · refine Or.inr ⟨e :: front, bad, back, rfl, List.forall_mem_cons.mpr ⟨⟨bytes, canonical⟩, good⟩,
          spoilt, ?_⟩
        rw [List.mapM_cons, own, blamed]
        rfl

/-- Files with other texts for their contents are found under the same paths. -/
theorem findEntry_encoded (path : Path) (files : List (Path × Bytes)) :
    findEntry path (files.map encodedFile) =
      (findEntry path files).map fun bytes => String.ofList (Base64.encode bytes) := by
  induction files with
  | nil => rfl
  | cons file files ih =>
    simp only [List.map_cons, encodedFile, findEntry]
    split
    · rfl
    · exact ih

theorem encoded_injective {a b : Bytes}
    (same : String.ofList (Base64.encode a) = String.ofList (Base64.encode b)) : a = b := by
  have read := congrArg (fun s => Base64.decode? s.toList) same
  simp only [String.toList_ofList, Base64Text.decode?_encode, Option.some.injEq] at read
  exact read

section Listed

variable {entries : List (Path × String)}

theorem firstSpelling?_iff_listed {key : Path} :
    firstSpelling? key entries = some key ↔ key ∈ (Table.ofList entries).entries.map (·.1) :=
  firstSpelling?_eq_some_iff

theorem lastText?_eq_found (path : Path) :
    lastText? path entries = findEntry path (Table.ofList entries).entries :=
  lastText?_eq path

/-- Where all texts that count are the contents of files, these are the overlay. -/
theorem decoded_files {files : List (Path × Bytes)}
    (split : (Table.ofList entries).entries = files.map encodedFile) :
    (∀ path, ¬ Spoilt entries path) ∧ Decoded entries (Table.ofList files) := by
  refine ⟨?_, ?_⟩
  · rintro path ⟨text, last, other⟩
    rw [lastText?_eq_found, split, findEntry_encoded] at last
    obtain ⟨bytes, -, same⟩ := Option.map_eq_some_iff.mp last
    exact other bytes same.symm
  have ascending := (Table.ofList entries).ascending
  rw [split] at ascending
  have sorted : files.Pairwise KeyBefore :=
    (List.pairwise_map.mp ascending).imp fun before => before
  have own : Table.ofList files = ⟨files, sorted⟩ := ofList_entries ⟨files, sorted⟩
  rw [own]
  refine ⟨fun key => ?_, fun path bytes => ?_⟩
  · rw [firstSpelling?_iff_listed, split, List.map_map]
    rfl
  · rw [lastText?_eq_found, split, findEntry_encoded]
    constructor
    · intro found
      have found : findEntry path files = some bytes := found
      rw [found]
      rfl
    · intro found
      obtain ⟨other, found, same⟩ := Option.map_eq_some_iff.mp found
      exact encoded_injective same ▸ found

/-- The first text that is not the contents of a file is that of the least path that is spoilt. -/
theorem blamed_first {front back : List (Path × String)} {bad : Path × String}
    (split : (Table.ofList entries).entries = front ++ bad :: back)
    (good : ∀ other ∈ front, ∃ bytes, other.2 = String.ofList (Base64.encode bytes))
    (spoilt : ∀ bytes, bad.2 ≠ String.ofList (Base64.encode bytes)) : Blamed entries bad.1 := by
  obtain ⟨bad, badText⟩ := bad
  have member : (bad, badText) ∈ (Table.ofList entries).entries := by
    rw [split]
    exact List.mem_append_right _ (List.mem_cons_self ..)
  obtain ⟨listed, found⟩ := mem_entries_iff.mp member
  refine ⟨⟨badText, (lastText?_eq bad).trans found, spoilt⟩, firstSpelling?_eq_some_iff.mpr listed, ?_⟩
  rintro path ⟨text, last, other⟩
  rw [lastText?_eq_found] at last
  obtain ⟨key, inside, same⟩ := mem_of_findEntry last
  have ascending := (Table.ofList entries).ascending
  rw [split] at inside ascending
  rw [Std.TransCmp.congr_right same]
  rcases List.mem_append.mp inside with earlier | later
  · obtain ⟨bytes, canonical⟩ := good _ earlier
    exact absurd canonical (other bytes)
  rcases List.mem_cons.mp later with own | behind
  · cases own
    rw [Std.ReflOrd.compare_self]
    rfl
  · obtain ⟨-, sorted, -⟩ := List.pairwise_append.mp ascending
    have before : KeyBefore (bad, badText) (key, text) := (List.pairwise_cons.mp sorted).1 _ behind
    have less : compare bad key = .lt := before
    rw [less]
    rfl

/-- Members that spell entries are decoded, unless a path is spoilt: then the least one is blamed. -/
theorem readOverlay_decodes {members : List (RawString × RawString)}
    (same : List.Forall₂ StringMember members entries) :
    ((∀ path, ¬ Spoilt entries path) ∧
      ∃ overlay, Decoded entries overlay ∧ readOverlay (overlayTree members) = .ok overlay) ∨
    ∃ file, Blamed entries file ∧
      readOverlay (overlayTree members) = .error (.wrongContents file) := by
  rw [readOverlay_members same]
  rcases mapM_decodeContents_cases (Table.ofList entries).entries with
    ⟨files, split, all⟩ | ⟨front, bad, back, split, good, spoilt, blamed⟩
  · obtain ⟨clean, decoded⟩ := decoded_files split
    exact Or.inl ⟨clean, _, decoded, by rw [all]; rfl⟩
  · exact Or.inr ⟨bad.1, blamed_first split good spoilt, by rw [blamed]; rfl⟩

end Listed

/-! ## What else a request says -/

/-- No file is blamed. -/
def Blameless (read : Except RequestError α) : Prop :=
  ∀ file, read ≠ .error (.wrongContents file)

theorem blameless_ofText (read : Except Fault α) : Blameless (ofText read) := by
  intro file
  cases read <;> exact nofun

theorem blameless_bind {read : Except RequestError α} {next : α → Except RequestError β}
    (first : Blameless read) (later : ∀ a, Blameless (next a)) : Blameless (read >>= next) := by
  intro file
  cases read with
  | error e =>
    intro same
    cases same
    exact first file rfl
  | ok a => exact later a file

theorem blameless_ok (a : α) : Blameless (.ok a : Except RequestError α) :=
  fun _ => nofun

theorem blameless_error {e : RequestError} (other : ∀ file, e ≠ .wrongContents file) :
    Blameless (.error e : Except RequestError α) := by
  intro file same
  cases same
  exact other file rfl

theorem blameless_refuse (tree : Tree) (wanted : String) : Blameless (refuse tree wanted : Except _ α) := by
  refine blameless_bind ?_ fun found => blameless_error (by simp)
  cases tree with
  | number n =>
    rw [describe]
    split
    · exact blameless_ok _
    · exact blameless_error (by simp)
  | string s => exact blameless_bind (blameless_ofText s.text) fun _ => blameless_ok _
  | broken fault | brokenNumber fault => exact @blameless_error _ (.text fault) (by simp)
  | _ => exact blameless_ok _

theorem blameless_readMode (tree : Tree) : Blameless (readMode tree) := by
  unfold readMode
  split
  · split
    · split
      · exact blameless_ok _
      · exact blameless_error (by simp)
    · exact blameless_error (by simp)
    · exact blameless_refuse _ _
  · exact blameless_refuse _ _

theorem blameless_readBoolean (tree : Tree) : Blameless (readBoolean tree) := by
  unfold readBoolean
  split
  · exact blameless_ok _
  · exact blameless_refuse _ _

theorem blameless_readText (tree : Tree) : Blameless (readText tree) := by
  unfold readText
  split
  · exact blameless_ofText _
  · exact blameless_refuse _ _

theorem blameless_readTexts (tree : Tree) : Blameless (readTexts tree) := by
  have each (items : List Tree) : Blameless (items.mapM readText) := by
    induction items with
    | nil => exact blameless_ok _
    | cons item items ih =>
      rw [List.mapM_cons]
      exact blameless_bind (blameless_readText item) fun _ =>
        blameless_bind ih fun _ => blameless_ok _
  unfold readTexts
  split
  · exact blameless_bind (each _) fun _ =>
      blameless_bind (blameless_ofText _) fun _ => blameless_ok _
  · exact blameless_refuse _ _

/-- Something is read that leaves the overlay as it is and blames no file. -/
structure Apart (f : Fields) (read : Except RequestError Fields) : Prop where
  kept : ∀ f', read = .ok f' → f'.overlay? = f.overlay?
  blameless : Blameless read

theorem apart_error {f : Fields} {e : RequestError} (other : ∀ file, e ≠ .wrongContents file) :
    Apart f (.error e) := by
  refine ⟨fun f' same => ?_, blameless_error other⟩
  cases same

/-- A reading whose result goes into a field other than the overlay. -/
theorem apart_bind {f : Fields} {read : Except RequestError α} {next : α → Fields}
    (first : Blameless read) (kept : ∀ a, (next a).overlay? = f.overlay?) :
    Apart f (read >>= fun a => pure (next a)) := by
  refine ⟨fun f' same => ?_, blameless_bind first fun a => blameless_ok _⟩
  cases read with
  | error e => cases same
  | ok a =>
    cases same
    exact kept a

theorem blameless_once {name : String} {before : Option α} {read : Except RequestError α}
    (first : before.isSome ∨ Blameless read) : Blameless (Fields.once name before read) := by
  unfold Fields.once
  split
  · exact blameless_error (by simp)
  · rename_i fresh
    exact first.resolve_left fresh

/-- Only an overlay that is read for the first time is taken in, and only then files are blamed. -/
theorem readField_apart {f : Fields} {name : String} (apart : name = "Overlay" → f.overlay?.isSome)
    (tree : Tree) : Apart f (f.readField name tree) := by
  unfold Fields.readField
  split
  · exact apart_bind (blameless_once (Or.inr (blameless_readMode tree))) fun _ => rfl
  split
  · exact apart_bind (blameless_once (Or.inr (blameless_readTexts tree))) fun _ => rfl
  split
  · exact apart_bind (blameless_once (Or.inr (blameless_readTexts tree))) fun _ => rfl
  split
  · exact apart_bind (blameless_once (Or.inr (blameless_readBoolean tree))) fun _ => rfl
  split
  · rename_i overlay
    have once : Fields.once name f.overlay? (readOverlay tree) = .error (.duplicateField name) := by
      rw [Fields.once, if_pos (apart overlay)]
    rw [once]
    exact apart_error (by simp)
  · exact apart_bind (blameless_ofText _) fun _ => rfl

/-- A step that reads a member or an item after the other. -/
theorem apart_foldlM {step : Fields → α → Except RequestError Fields} {items : List α} {f : Fields}
    (each : ∀ item ∈ items, ∀ g : Fields, g.overlay? = f.overlay? → Apart g (step g item)) :
    Apart f (items.foldlM step f) := by
  induction items generalizing f with
  | nil => exact ⟨fun f' same => by cases same; rfl, blameless_ok f⟩
  | cons item items ih =>
    obtain ⟨own, others⟩ := List.forall_mem_cons.mp each
    have first := own f rfl
    rw [List.foldlM_cons]
    cases read : step f item with
    | error e =>
      rw [read] at first
      refine ⟨fun f' same => ?_, first.blameless⟩
      cases same
    | ok g =>
      have same := first.kept g read
      have rest := @ih g fun item inside h alike => others item inside h (alike.trans same)
      exact ⟨fun f' found => (rest.kept f' found).trans same, rest.blameless⟩

/-- No member but the first that is named so is an overlay. -/
theorem readMembers_apart {f : Fields} {members : List (RawString × Tree)}
    (apart : ∀ member ∈ members, member.1.text = .ok "Overlay" → f.overlay?.isSome) :
    Apart f (members.foldlM Fields.readMember f) := by
  refine apart_foldlM fun member inside g alike => ?_
  rw [Fields.readMember]
  cases read : member.1.text with
  | error fault => exact @apart_error g (.text fault) (by simp)
  | ok name =>
    refine readField_apart (fun overlay => ?_) member.2
    rw [alike]
    exact apart member inside (overlay ▸ read)

/-! ## Where an overlay stands -/

/-- A request around its overlay. As an object it has members in front and behind. As an array it has
the other fields in front, in their order, and nothing may stand behind. -/
inductive Site where
  | members (front : List (RawString × Tree)) (key : RawString) (back : List (RawString × Tree))
  | items (mode env buildFlags tests : Tree) (back : List Tree)

namespace Site

/-- The request with an overlay. -/
def tree (overlay : Tree) : Site → Tree
  | members front key back => .object (front ++ (key, overlay) :: back) none
  | items mode env buildFlags tests back =>
    .array ([mode, env, buildFlags, tests, overlay] ++ back) none

/-- It is the first member that is named so. -/
def Named : Site → Prop
  | members front key _ =>
    TextOf key "Overlay" ∧ ∀ member ∈ front, ¬ TextOf member.1 "Overlay"
  | items .. => True

/-- What is read in front of the overlay. -/
def before : Site → Except RequestError Fields
  | members front _ _ => front.foldlM Fields.readMember {}
  | items mode env buildFlags tests _ =>
    (Fields.names.zip [mode, env, buildFlags, tests]).foldlM
      (fun f field => f.readField field.1 field.2) {}

/-- What is read behind it. -/
def behind (f : Fields) : Site → Except RequestError Request
  | members _ _ back => (back.foldlM Fields.readMember f).map Fields.request
  | items _ _ _ _ back => if back.isEmpty then .ok f.request else .error (.text .malformed)

end Site

/-- An overlay that is read for the first time is taken in. -/
theorem readField_overlay {f : Fields} (fresh : f.overlay? = none) (tree : Tree) :
    f.readField "Overlay" tree =
      (readOverlay tree).map fun found => { f with overlay? := some found } := by
  simp only [Fields.readField, Fields.once, fresh, String.reduceEq, ↓reduceIte, Option.isSome_none,
    Bool.false_eq_true]
  cases readOverlay tree <;> rfl

/-- In front of the overlay no other one is read, and no file is blamed. -/
theorem before_apart {site : Site} (named : site.Named) {overlay : Tree} {cs : List Char}
    (written : Spelled (site.tree overlay) cs) : Apart {} site.before := by
  cases site with
  | members front key back =>
    refine readMembers_apart fun member inside read => ?_
    obtain ⟨key, spelled⟩ := keys_written written rfl member (List.mem_append_left _ inside)
    exact absurd (textOf_of_text spelled read) (named.2 member inside)
  | items mode env buildFlags tests back =>
    refine apart_foldlM fun item inside g _ => readField_apart (fun same => ?_) item.2
    have names : ∀ item ∈ Fields.names.zip [mode, env, buildFlags, tests], item.1 ≠ "Overlay" := by
      simp [Fields.names]
    exact absurd same (names item inside)

/-- Behind the overlay none is read once more, and no file is blamed. -/
theorem behind_apart {f : Fields} (known : f.overlay?.isSome) (site : Site) :
    (∀ r, site.behind f = .ok r → some r.overlay = f.overlay?) ∧ Blameless (site.behind f) := by
  have taken {g : Fields} (same : g.overlay? = f.overlay?) : some g.request.overlay = f.overlay? := by
    obtain ⟨overlay, found⟩ := Option.isSome_iff_exists.mp known
    rw [Fields.request, same, found]
    rfl
  cases site with
  | members front key back =>
    obtain ⟨kept, blameless⟩ := @readMembers_apart f back fun _ _ _ => known
    rw [Site.behind]
    cases read : back.foldlM Fields.readMember f with
    | error e =>
      rw [read] at blameless
      have other (file : Path) : e ≠ .wrongContents file := fun same => blameless file (same ▸ rfl)
      refine ⟨fun r same => ?_, blameless_error other⟩
      cases same
    | ok g =>
      refine ⟨fun r same => ?_, blameless_ok _⟩
      cases same
      exact taken (kept g read)
  | items mode env buildFlags tests back =>
    rw [Site.behind]
    split
    · refine ⟨fun r same => ?_, blameless_ok _⟩
      cases same
      exact taken rfl
    · refine ⟨fun r same => ?_, blameless_error (by simp)⟩
      cases same

/-- A request is read up to its overlay, then its overlay, then the rest. -/
theorem read_site {site : Site} (named : site.Named) {overlay : Tree} {text : String}
    (written : Spelled (site.tree overlay) text.toList) :
    Request.read (utf8Bytes text) = (do
      let f ← site.before
      let found ← readOverlay overlay
      site.behind { f with overlay? := some found }) := by
  have document : Document.read (utf8Bytes text) = ⟨site.tree overlay, false⟩ := read_spelled written
  have apart := before_apart named written
  rw [Request.read, document]
  cases site with
  | members front key back =>
    simp only [Site.tree, Fields.read, List.foldlM_append, List.foldlM_cons]
    rw [Site.before] at apart ⊢
    cases read : front.foldlM Fields.readMember {} with
    | error e => rfl
    | ok f =>
      have fresh : f.overlay? = none := apart.kept f read
      have own := @readMember_named f (key, overlay) "Overlay" named.1
      simp only [bind, Except.bind, own, readField_overlay fresh]
      cases readOverlay overlay with
      | error e => rfl
      | ok found =>
        simp only [Except.map, Site.behind]
        cases back.foldlM Fields.readMember { f with overlay? := some found } <;> rfl
  | items mode env buildFlags tests back =>
    have split : Fields.names.zip ([mode, env, buildFlags, tests, overlay] ++ back) =
        Fields.names.zip [mode, env, buildFlags, tests] ++ [("Overlay", overlay)] := by
      simp [Fields.names]
    simp only [Site.tree, Fields.read, split, List.foldlM_append, List.foldlM_cons, List.foldlM_nil]
    rw [Site.before] at apart ⊢
    generalize (Fields.names.zip [mode, env, buildFlags, tests]).foldlM
      (fun (f : Fields) field => f.readField field.1 field.2) {} = read at apart ⊢
    cases read with
    | error e => rfl
    | ok f =>
      have fresh : f.overlay? = none := apart.kept f rfl
      simp only [bind, Except.bind, readField_overlay fresh]
      cases readOverlay overlay with
      | error e => rfl
      | ok found => cases back <;> rfl

/-! ## Requests with an overlay -/

section Outcome

variable {site : Site} {members members' : List (RawString × RawString)}
  {entries entries' : List (Path × String)} {text text' : String}

/-- Members of different paths may change places. -/
theorem read_reordered (named : site.Named)
    (alike : ∀ path, membersFor path entries' = membersFor path entries)
    (same : List.Forall₂ StringMember members entries)
    (same' : List.Forall₂ StringMember members' entries')
    (written : Spelled (site.tree (overlayTree members)) text.toList)
    (written' : Spelled (site.tree (overlayTree members')) text'.toList) :
    Request.read (utf8Bytes text') = Request.read (utf8Bytes text) := by
  have tables : Table.ofList entries' = Table.ofList entries := ofList_congr fun path => by
    rw [← membersFor_eq, ← membersFor_eq, alike]
  rw [read_site named written', read_site named written, readOverlay_members same',
    readOverlay_members same, tables]

/-- A request whose overlay is decoded has it, and no file is blamed. -/
theorem read_decoded (named : site.Named) {tree : Tree} {overlay : Overlay}
    (written : Spelled (site.tree tree) text.toList) (decoded : readOverlay tree = .ok overlay) :
    Request.read (utf8Bytes text) =
        site.before >>= (fun f => site.behind { f with overlay? := some overlay }) ∧
      (∀ r, Request.read (utf8Bytes text) = .ok r → r.overlay = overlay) ∧
      Blameless (Request.read (utf8Bytes text)) := by
  have read := read_site named written
  rw [decoded] at read
  have rest (f : Fields) := behind_apart (f := { f with overlay? := some overlay }) rfl site
  have whole : Request.read (utf8Bytes text) =
      site.before >>= fun f => site.behind { f with overlay? := some overlay } := read
  refine ⟨whole, fun r same => ?_, ?_⟩
  · rw [whole] at same
    cases before : site.before with
    | error e =>
      rw [before] at same
      cases same
    | ok f =>
      rw [before] at same
      exact Option.some.inj ((rest f).1 r same)
  · rw [whole]
    exact blameless_bind (before_apart named written).blameless fun f => (rest f).2

/-- A request whose overlay blames a file does so, unless something in front of it is refused. -/
theorem read_blamed (named : site.Named) {tree : Tree} {file : Path}
    (written : Spelled (site.tree tree) text.toList)
    (blamed : readOverlay tree = .error (.wrongContents file)) :
    (∀ f, site.before = .ok f → Request.read (utf8Bytes text) = .error (.wrongContents file)) ∧
      ∀ e, site.before = .error e → Request.read (utf8Bytes text) = .error e := by
  have read := read_site named written
  rw [blamed] at read
  constructor
  · intro f before
    rw [read, before]
    rfl
  · intro e before
    rw [read, before]
    rfl

/-- Whatever request the members stand in, a file is blamed if and only if nothing in front of the
overlay is refused and the last text of some path is not canonical, and it is the least such path in its
first spelling. Otherwise every path has the contents that its last text stands for. The order of the
members matters for none of it, but for those of one path. -/
theorem overlay_decodes_last_texts (named : site.Named)
    (same : List.Forall₂ StringMember members entries)
    (written : Spelled (site.tree (overlayTree members)) text.toList) :
    ((∃ file, Request.read (utf8Bytes text) = .error (.wrongContents file)) ↔
      (∃ f, site.before = .ok f) ∧ ∃ path, Spoilt entries path) ∧
    (∀ file, Request.read (utf8Bytes text) = .error (.wrongContents file) → Blamed entries file) ∧
    (∀ r, Request.read (utf8Bytes text) = .ok r → Decoded entries r.overlay) ∧
    ((∀ path, ¬ Spoilt entries path) → ∃ overlay, Decoded entries overlay ∧
      Request.read (utf8Bytes text) =
        site.before >>= fun f => site.behind { f with overlay? := some overlay }) ∧
    ∀ members' entries' text', (∀ path, membersFor path entries' = membersFor path entries) →
      List.Forall₂ StringMember members' entries' →
      Spelled (site.tree (overlayTree members')) text'.toList →
      Request.read (utf8Bytes text') = Request.read (utf8Bytes text) := by
  have reordered := fun members' entries' text' alike same' written' =>
    @read_reordered site members members' entries entries' text text' named alike same same' written
      written'
  rcases readOverlay_decodes same with ⟨clean, overlay, decoded, found⟩ | ⟨file, blamed, refused⟩
  · obtain ⟨whole, taken, blameless⟩ := read_decoded named written found
    refine ⟨⟨?_, ?_⟩, fun file same => (blameless file same).elim, fun r same => ?_,
      fun _ => ⟨overlay, decoded, whole⟩, reordered⟩
    · rintro ⟨file, same⟩
      exact (blameless file same).elim
    · rintro ⟨-, path, spoilt⟩
      exact (clean path spoilt).elim
    · exact taken r same ▸ decoded
  · obtain ⟨sound, unsound⟩ := read_blamed named written refused
    have front := (before_apart named written).blameless
    have notClean : ¬ ∀ path, ¬ Spoilt entries path := fun clean => clean file blamed.spoilt
    cases before : site.before with
    | error e =>
      rw [unsound e before]
      have other (file : Path) : e ≠ .wrongContents file := fun same => front file (same ▸ before)
      refine ⟨⟨?_, ?_⟩, ?_, ?_, fun clean => (notClean clean).elim,
        unsound e before ▸ reordered⟩
      · rintro ⟨file, same⟩
        cases same
        exact (other file rfl).elim
      · rintro ⟨⟨f, same⟩, -⟩
        cases same
      · intro file same
        cases same
        exact (other file rfl).elim
      · exact fun r => nofun
    | ok f =>
      rw [sound f before]
      refine ⟨⟨fun _ => ⟨⟨f, rfl⟩, file, blamed.spoilt⟩, fun _ => ⟨file, rfl⟩⟩, ?_, ?_,
        fun clean => (notClean clean).elim, sound f before ▸ reordered⟩
      · intro other same
        cases same
        exact blamed
      · exact fun r => nofun

end Outcome

/-- Members of an overlay of which some name one path. The last texts of two paths are not canonical. -/
def contested : List (String × String) :=
  [("/b", "!"), ("/a", "cA=="), ("/b/", "cA=="), ("/a//x", "?"), ("/./a", "!")]

def contestedEntries : List (Path × String) :=
  contested.map fun member => (⟨member.1⟩, member.2)

def contestedMembers : List (RawString × RawString) :=
  contested.map fun member => (plainString member.1, plainString member.2)

def contestedText : String :=
  "\x7b\"Overlay\":\x7b\"/b\":\"!\",\"/a\":\"cA==\",\"/b/\":\"cA==\",\"/a//x\":\"?\",\"/./a\":\"!\"\x7d\x7d"

theorem contested_spelled : Spelled (.object [(plainString "Overlay", overlayTree contestedMembers)] none)
    contestedText.toList := by
  have plain : ∀ member ∈ contested,
      (member.1.toList.all fun c => c ≠ '"' ∧ c ≠ '\\' ∧ ¬ c.toNat < 0x20) ∧
        member.2.toList.all fun c => c ≠ '"' ∧ c ≠ '\\' ∧ ¬ c.toNat < 0x20 := by decide
  let quoted (s : String) : List Char := '"' :: s.toList ++ ['"']
  let rows := contested.map fun member =>
    ((plainString member.1, Tree.string (plainString member.2)), quoted member.1, quoted member.2)
  have inner : Spelled (overlayTree contestedMembers)
      ('\x7b' :: withCommas (rows.map fun row => row.2.1 ++ ':' :: row.2.2) ++ ['\x7d']) := by
    refine @Spelled.object rows (by simp [rows, contested]) ?_ ?_
    · exact List.forall_mem_map.mpr fun member inside => plainString_spelled (plain member inside).1
    · exact List.forall_mem_map.mpr fun member inside =>
        .string (plainString_spelled (plain member inside).2)
  have text : contestedText.toList = '\x7b' :: withCommas [quoted "Overlay" ++ ':' ::
      ('\x7b' :: withCommas (rows.map fun row => row.2.1 ++ ':' :: row.2.2) ++ ['\x7d'])] ++
        ['\x7d'] := by
    decide +kernel
  rw [text]
  exact @Spelled.object [((plainString "Overlay", overlayTree contestedMembers), quoted "Overlay", _)]
    (by simp) (List.forall_mem_singleton.mpr (plainString_spelled (by decide)))
    (List.forall_mem_singleton.mpr inner)

theorem contested_blamed : List.Forall₂ StringMember contestedMembers contestedEntries ∧
    ∃ file, Request.read (utf8Bytes contestedText) = .error (.wrongContents file) ∧
      Blamed contestedEntries file := by
  have same : List.Forall₂ StringMember contestedMembers contestedEntries := by
    refine List.forall₂_map_left_iff.mpr (List.forall₂_map_right_iff.mpr (List.forall₂_same.mpr ?_))
    exact fun member _ => ⟨textOf_plainString member.1, textOf_plainString member.2⟩
  have named : (Site.members [] (plainString "Overlay") []).Named :=
    ⟨textOf_plainString "Overlay", List.forall_mem_nil _⟩
  obtain ⟨blames, blamed, -⟩ := overlay_decodes_last_texts named same contested_spelled
  have spoilt : Spoilt contestedEntries ⟨"/a"⟩ := by
    refine ⟨"!", by decide +kernel, fun bytes canonical => ?_⟩
    have read : Base64.decode? "!".toList = some bytes := by
      rw [canonical, String.toList_ofList, Base64Text.decode?_encode]
    cases read
  obtain ⟨file, refused⟩ := blames.mpr ⟨⟨{}, rfl⟩, _, spoilt⟩
  exact ⟨same, file, refused, blamed file refused⟩

end PackageLoader.OverlayDecoding
