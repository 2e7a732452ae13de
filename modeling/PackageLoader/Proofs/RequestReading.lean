import PackageLoader.Proofs.Base64Text
import PackageLoader.Proofs.JsonGrammar
import PackageLoader.Proofs.TableListing
import PackageLoader.Request.Reading

/-! Requests as clients write them: the fields in any order and between members that nobody knows, what
has its default left out or written. Every such text is read to the request that was written, but for
empty lists that are written as `null`: those are refused, where an overlay written so is empty. -/
namespace PackageLoader.RequestReading
open Json Text Request Utf8Text JsonGrammar TableListing

/-! ## Written requests -/

/-- The fields of a request. -/
inductive Field where
  | mode
  | env
  | buildFlags
  | tests
  | overlay
  deriving DecidableEq

/-- The name under which a field is written. -/
def Field.name : Field → String
  | mode => "Mode"
  | env => "Env"
  | buildFlags => "BuildFlags"
  | tests => "Tests"
  | overlay => "Overlay"

/-- A list of strings: an array of them in order, or `null` if there are none. -/
inductive TextsTree : List String → Tree → Prop where
  | items {raws : List RawString} {texts : List String} (same : List.Forall₂ TextOf raws texts) :
      TextsTree texts (.array (raws.map .string) none)
  | null : TextsTree [] .null

/-- A member of an overlay: a path as it is spelled, and a text. -/
structure StringMember (member : RawString × RawString) (entry : Path × String) : Prop where
  path : TextOf member.1 entry.1.text
  text : TextOf member.2 entry.2

/-- The tree of an overlay with the given members. -/
def overlayTree (members : List (RawString × RawString)) : Tree :=
  .object (members.map fun member => (member.1, .string member.2)) none

/-- A file with its contents as text. -/
def encodedFile (file : Path × Bytes) : Path × String :=
  (file.1, String.ofList (Base64.encode file.2))

/-- An overlay: an object of its files in any order, or `null` if there are none. -/
inductive OverlayTree : Overlay → Tree → Prop where
  | files {overlay : Overlay} {files : List (Path × Bytes)} {members : List (RawString × RawString)}
      (all : files.Perm overlay.entries)
      (same : List.Forall₂ StringMember members (files.map encodedFile)) :
      OverlayTree overlay (overlayTree members)
  | null : OverlayTree .empty .null

/-- The value of a field as it is written. -/
inductive FieldTree (r : Request) : Field → Tree → Prop where
  | mode {digits : List Nat} (value : ofDigits digits = r.mode.bits.toNat) :
      FieldTree r .mode (.number ⟨false, digits, none, none⟩)
  | env {tree : Tree} (texts : TextsTree r.env tree) : FieldTree r .env tree
  | buildFlags {tree : Tree} (texts : TextsTree r.buildFlags tree) : FieldTree r .buildFlags tree
  | tests : FieldTree r .tests (.boolean r.tests)
  | overlay {tree : Tree} (files : OverlayTree r.overlay tree) : FieldTree r .overlay tree

/-- A field has its default. -/
def Blank (r : Request) : Field → Prop
  | .mode => r.mode = ⟨0⟩
  | .env => r.env = []
  | .buildFlags => r.buildFlags = []
  | .tests => r.tests = false
  | .overlay => r.overlay = .empty

/-- Members that write fields of a request. Every key is a text and no field is written twice; about
members of other names nothing is said. -/
structure Writes (r : Request) (members : List (RawString × Tree)) : Prop where
  named : ∀ member ∈ members, ∃ name, TextOf member.1 name
  once : members.Pairwise fun a b => ∀ field : Field, TextOf a.1 field.name → ¬ TextOf b.1 field.name
  written : ∀ member ∈ members, ∀ field, TextOf member.1 field.name → FieldTree r field member.2

/-- Members that write a request. Only a default may be left out. -/
structure Encodes (r : Request) (members : List (RawString × Tree)) : Prop extends
    Writes r members where
  leftOut : ∀ field, (∀ member ∈ members, ¬ TextOf member.1 field.name) → Blank r field

/-- A list of strings that is written as `null`. -/
def NullList (member : RawString × Tree) : Prop :=
  member.2 = .null ∧ (TextOf member.1 Field.env.name ∨ TextOf member.1 Field.buildFlags.name)

/-! ## Values of fields -/

/-- Digits whose value fits are absorbed entirely. -/
theorem absorb_fits {digits : List Nat} {n : Nat}
    (fits : digits.foldl (fun n d => n * 10 + d) n < 1 <<< 64) :
    absorb n digits = (digits.foldl (fun n d => n * 10 + d) n, []) := by
  induction digits generalizing n with
  | nil => rfl
  | cons d digits ih =>
    have grows (digits : List Nat) (n : Nat) : n ≤ digits.foldl (fun n d => n * 10 + d) n := by
      induction digits generalizing n with
      | nil => exact Nat.le_refl n
      | cons d digits ih => exact Nat.le_trans (by omega) (ih (n * 10 + d))
    have step : n * 10 + d < 1 <<< 64 := Nat.lt_of_le_of_lt (grows digits _) fits
    rw [absorb, if_pos step]
    exact ih fits

theorem readMode_digits {mode : LoadMode} {digits : List Nat}
    (value : ofDigits digits = mode.bits.toNat) :
    readMode (.number ⟨false, digits, none, none⟩) = .ok mode := by
  have bound := mode.bits.toNat_lt
  have fits : ofDigits digits < 1 <<< 64 := by
    rw [value]
    exact Nat.lt_of_lt_of_le bound (by decide)
  have natural : Number.value? ⟨false, digits, none, none⟩ = some (.natural mode.bits.toNat) := by
    simp only [Number.value?, absorb_fits fits]
    rw [← value]
    rfl
  have small : mode.bits.toNat < 1 <<< 32 := bound
  rw [readMode, natural]
  simp only [small, ↓reduceIte, UInt32.ofNat_toNat]

theorem readTexts_items {raws : List RawString} {texts : List String}
    (same : List.Forall₂ TextOf raws texts) :
    readTexts (.array (raws.map .string) none) = .ok texts := by
  have each : (raws.map Tree.string).mapM readText = .ok texts := by
    induction same with
    | nil => rfl
    | @cons raw text raws texts own others ih =>
      rw [List.map_cons, List.mapM_cons, ih, readText, text_of own]
      rfl
  rw [readTexts, each]
  rfl

theorem readTexts_written {texts : List String} {tree : Tree} (written : TextsTree texts tree)
    (filled : tree ≠ .null) : readTexts tree = .ok texts := by
  cases written with
  | items same => exact readTexts_items same
  | null => exact absurd rfl filled

/-- The members of an overlay are gathered in a table before any of them is decoded. -/
theorem readOverlay_members {members : List (RawString × RawString)} {entries : List (Path × String)}
    (same : List.Forall₂ StringMember members entries) : readOverlay (overlayTree members) =
      ((Table.ofList entries).entries.mapM decodeContents).map Table.ofList := by
  have each : (members.map fun member => (member.1, Tree.string member.2)).mapM
      (fun member => do return (Path.mk (← ofText member.1.text), ← readText member.2)) =
        .ok entries := by
    induction same with
    | nil => rfl
    | @cons member entry members entries own others ih =>
      rw [List.map_cons, List.mapM_cons, ih]
      simp only [readText, text_of own.path, text_of own.text]
      rfl
  rw [overlayTree, readOverlay]
  refine (congrArg (· >>= _) each).trans ?_
  show ((Table.ofList entries).entries.mapM decodeContents >>= fun files =>
    .ok (Table.ofList files)) = _
  cases (Table.ofList entries).entries.mapM decodeContents <;> rfl

/-- Files are decoded from what they were encoded to. -/
theorem mapM_decodeContents (files : List (Path × Bytes)) :
    (files.map encodedFile).mapM decodeContents = .ok files := by
  induction files with
  | nil => rfl
  | cons file files ih =>
    rw [List.map_cons, List.mapM_cons, ih, decodeContents, encodedFile, String.toList_ofList,
      Base64Text.decode?_encode]
    rfl

theorem readOverlay_written {overlay : Overlay} {tree : Tree} (written : OverlayTree overlay tree) :
    readOverlay tree = .ok overlay := by
  cases written with
  | null => rfl
  | @files _ files members all same =>
    let table := overlay.revise fun _ bytes => some (String.ofList (Base64.encode bytes))
    have entries : table.entries = overlay.entries.map encodedFile := by
      simp only [table, Table.revise, Option.map_some, List.filterMap_eq_map']
      rfl
    have gathered : Table.ofList (files.map encodedFile) = table :=
      ofList_perm (entries ▸ all.map encodedFile)
    rw [readOverlay_members same, gathered, entries, mapM_decodeContents]
    exact congrArg _ (ofList_entries overlay)

/-! ## Fields one after the other -/

/-- What is known of a request once the fields of the given names have been read. -/
def filled (r : Request) (seen : List String) : Fields where
  mode? := if "Mode" ∈ seen then some r.mode else none
  env? := if "Env" ∈ seen then some r.env else none
  buildFlags? := if "BuildFlags" ∈ seen then some r.buildFlags else none
  tests? := if "Tests" ∈ seen then some r.tests else none
  overlay? := if "Overlay" ∈ seen then some r.overlay else none

section Step

variable {r : Request} {seen : List String} {field : Field} {tree : Tree}

/-- A field that is read for the first time is known from then on. -/
theorem readField_written (fresh : field.name ∉ seen) (written : FieldTree r field tree)
    (listed : tree = .null → field ≠ .env ∧ field ≠ .buildFlags) :
    (filled r seen).readField field.name tree = .ok (filled r (field.name :: seen)) := by
  cases written with
  | mode value =>
    have absent : "Mode" ∉ seen := fresh
    simp [Fields.readField, Field.name, filled, Fields.once, absent, readMode_digits value]
  | env texts =>
    have absent : "Env" ∉ seen := fresh
    have read := readTexts_written texts fun null => (listed null).1 rfl
    simp [Fields.readField, Field.name, filled, Fields.once, absent, read]
  | buildFlags texts =>
    have absent : "BuildFlags" ∉ seen := fresh
    have read := readTexts_written texts fun null => (listed null).2 rfl
    simp [Fields.readField, Field.name, filled, Fields.once, absent, read]
  | tests =>
    have absent : "Tests" ∉ seen := fresh
    simp [Fields.readField, Field.name, filled, Fields.once, absent, readBoolean]
  | overlay files =>
    have absent : "Overlay" ∉ seen := fresh
    simp [Fields.readField, Field.name, filled, Fields.once, absent, readOverlay_written files]

/-- A list that is written as `null` is refused. -/
theorem readField_null (fresh : field.name ∉ seen) (list : field = .env ∨ field = .buildFlags) :
    (filled r seen).readField field.name .null = .error (.wrongType "null" "a sequence") := by
  rcases list with rfl | rfl
  · have absent : "Env" ∉ seen := fresh
    simp only [Fields.readField, Field.name, filled, Fields.once, absent, String.reduceEq, ↓reduceIte,
      Option.isSome_none, Bool.false_eq_true]
    rfl
  · have absent : "BuildFlags" ∉ seen := fresh
    simp only [Fields.readField, Field.name, filled, Fields.once, absent, String.reduceEq, ↓reduceIte,
      Option.isSome_none, Bool.false_eq_true]
    rfl

/-- A member that nobody knows is passed over. -/
theorem readField_unknown {name : String} (unknown : ∀ field : Field, name ≠ field.name)
    (sound : tree.check = .ok ()) :
    (filled r seen).readField name tree = .ok (filled r (name :: seen)) := by
  have mode : name ≠ "Mode" := unknown .mode
  have env : name ≠ "Env" := unknown .env
  have buildFlags : name ≠ "BuildFlags" := unknown .buildFlags
  have tests : name ≠ "Tests" := unknown .tests
  have overlay : name ≠ "Overlay" := unknown .overlay
  simp [Fields.readField, filled, sound, ofText, mode, env, buildFlags, tests, overlay, mode.symm,
    env.symm, buildFlags.symm, tests.symm, overlay.symm]
  rfl

end Step

theorem readMember_named (f : Fields) {member : RawString × Tree} {name : String}
    (named : TextOf member.1 name) : f.readMember member = f.readField name member.2 := by
  rw [Fields.readMember, text_of named]
  rfl

section Run

variable {r : Request} {seen : List String}

/-- One more member is taken in under its name. -/
theorem readMember_written {member : RawString × Tree} {name : String}
    (named : TextOf member.1 name)
    (written : ∀ field, TextOf member.1 field.name → FieldTree r field member.2)
    (fresh : ∀ field : Field, TextOf member.1 field.name → field.name ∉ seen)
    (sound : member.2.check = .ok ()) (listed : ¬ NullList member) :
    (filled r seen).readMember member = .ok (filled r (name :: seen)) := by
  rw [readMember_named _ named]
  by_cases known : ∃ field : Field, name = field.name
  · obtain ⟨field, rfl⟩ := known
    refine readField_written (fresh field named) (written field named) fun null => ⟨?_, ?_⟩
    · rintro rfl
      exact listed ⟨null, Or.inl named⟩
    · rintro rfl
      exact listed ⟨null, Or.inr named⟩
  · exact readField_unknown (not_exists.mp known) sound

/-- The members behind the first one write fields as well, and none that was read before. -/
theorem writes_tail {member : RawString × Tree} {members : List (RawString × Tree)} {name : String}
    (writes : Writes r (member :: members)) (named : TextOf member.1 name)
    (fresh : ∀ m ∈ member :: members, ∀ field : Field, TextOf m.1 field.name → field.name ∉ seen) :
    Writes r members ∧
      ∀ m ∈ members, ∀ field : Field, TextOf m.1 field.name → field.name ∉ name :: seen := by
  obtain ⟨apart, once⟩ := List.pairwise_cons.mp writes.once
  refine ⟨⟨fun m inside => writes.named m (List.mem_cons_of_mem _ inside), once,
    fun m inside => writes.written m (List.mem_cons_of_mem _ inside)⟩, fun m inside field key => ?_⟩
  intro member
  rcases List.mem_cons.mp member with same | earlier
  · exact apart m inside field (same ▸ named) key
  · exact fresh m (List.mem_cons_of_mem _ inside) field key earlier

/-- Members that write fields of a request are taken in one after the other. -/
theorem readMembers_written {members : List (RawString × Tree)} (writes : Writes r members)
    (fresh : ∀ member ∈ members, ∀ field : Field, TextOf member.1 field.name → field.name ∉ seen)
    (sound : ∀ member ∈ members, member.2.check = .ok ())
    (listed : ∀ member ∈ members, ¬ NullList member) :
    ∃ names, members.foldlM Fields.readMember (filled r seen) = .ok (filled r names) ∧
      ∀ name, name ∈ names ↔ name ∈ seen ∨ ∃ member ∈ members, TextOf member.1 name := by
  induction members generalizing seen with
  | nil => exact ⟨seen, rfl, by simp⟩
  | cons member members ih =>
    obtain ⟨name, named⟩ := writes.named member (List.mem_cons_self ..)
    obtain ⟨later, fresh'⟩ := writes_tail writes named fresh
    have first := List.mem_cons_self (a := member) (l := members)
    obtain ⟨names, read, known⟩ := ih later fresh'
      (fun m inside => sound m (List.mem_cons_of_mem _ inside))
      fun m inside => listed m (List.mem_cons_of_mem _ inside)
    refine ⟨names, ?_, fun probe => ?_⟩
    · rw [List.foldlM_cons, readMember_written named (writes.written member first)
        (fresh member first) (sound member first) (listed member first)]
      exact read
    · have own : TextOf member.1 probe ↔ probe = name :=
        ⟨fun other => textOf_unique other named, fun same => same ▸ named⟩
      rw [known, List.exists_mem_cons_iff, List.mem_cons, own, or_assoc, or_left_comm]

/-- The first list that is written as `null` ends the reading. -/
theorem readMembers_null {members : List (RawString × Tree)} (writes : Writes r members)
    (fresh : ∀ member ∈ members, ∀ field : Field, TextOf member.1 field.name → field.name ∉ seen)
    (sound : ∀ member ∈ members, member.2.check = .ok ())
    (nulls : ∃ member ∈ members, NullList member) :
    members.foldlM Fields.readMember (filled r seen) = .error (.wrongType "null" "a sequence") := by
  induction members generalizing seen with
  | nil => simp at nulls
  | cons member members ih =>
    have first := List.mem_cons_self (a := member) (l := members)
    obtain ⟨name, named⟩ := writes.named member first
    obtain ⟨later, fresh'⟩ := writes_tail writes named fresh
    rw [List.foldlM_cons]
    by_cases listed : NullList member
    · obtain ⟨null, list⟩ := listed
      have refused : (filled r seen).readMember member = .error (.wrongType "null" "a sequence") := by
        rcases list with key | key
        · rw [readMember_named _ key, null]
          exact readField_null (fresh member first _ key) (Or.inl rfl)
        · rw [readMember_named _ key, null]
          exact readField_null (fresh member first _ key) (Or.inr rfl)
      rw [refused]
      rfl
    · rw [readMember_written named (writes.written member first) (fresh member first)
        (sound member first) listed]
      refine ih later fresh' (fun m inside => sound m (List.mem_cons_of_mem _ inside)) ?_
      exact ((List.exists_mem_cons_iff ..).mp nulls).resolve_left listed

end Run

/-! ## Requests -/

/-- A request is what its fields and its defaults say. -/
theorem request_filled {r : Request} {names : List String}
    (leftOut : ∀ field : Field, field.name ∉ names → Blank r field) :
    (filled r names).request = r := by
  have value {α : Type} {known : Prop} [Decidable known] {a default : α}
      (absent : ¬ known → a = default) : (if known then some a else none).getD default = a := by
    split
    · rfl
    · rename_i unknown
      exact (absent unknown).symm
  obtain ⟨mode, env, buildFlags, tests, overlay⟩ := r
  simp only [Fields.request, filled, Request.mk.injEq]
  exact ⟨value (leftOut .mode), value (leftOut .env), value (leftOut .buildFlags),
    value (leftOut .tests), value (leftOut .overlay)⟩

/-- Every text that writes a request is read to it, except where an empty list is written as `null`:
such a text is refused, whatever else it says. -/
theorem written_request_reads {r : Request} {members : List (RawString × Tree)} {text : String}
    (encodes : Encodes r members) (written : Spelled (.object members none) text.toList) :
    ((∀ member ∈ members, ¬ NullList member) → Request.read (utf8Bytes text) = .ok r) ∧
      ((∃ member ∈ members, NullList member) →
        Request.read (utf8Bytes text) = .error (.wrongType "null" "a sequence")) := by
  have document : Document.read (utf8Bytes text) = ⟨.object members none, false⟩ :=
    read_spelled written
  have sound := check_members written
  have fresh : ∀ member ∈ members, ∀ field : Field, TextOf member.1 field.name → field.name ∉ [] :=
    fun _ _ _ _ => List.not_mem_nil
  rw [Request.read, document]
  constructor
  · intro listed
    obtain ⟨names, read, known⟩ := readMembers_written encodes.toWrites fresh sound listed
    have all : (filled r names).request = r := request_filled fun field absent =>
      encodes.leftOut field fun member inside key =>
        absent ((known _).mpr (Or.inr ⟨member, inside, key⟩))
    simp only [Fields.read, bind, Except.bind]
    rw [show ({} : Fields) = filled r [] from rfl, read]
    exact congrArg Except.ok all
  · intro nulls
    have read := readMembers_null encodes.toWrites fresh sound nulls
    simp only [Fields.read, bind, Except.bind]
    rw [show ({} : Fields) = filled r [] from rfl, read]

/-- A request with some fields that have their defaults. -/
def sample : Request where
  mode := ⟨7⟩
  env := ["A=1"]
  overlay := .ofList [(⟨"/a"⟩, [112])]

/-- Members that write the request, with one that nobody knows, and how they are spelled. -/
def sampleRows : List ((RawString × Tree) × List Char × List Char) := [
  ((plainString "x", .array [.null] none), "\"x\"".toList, "[null]".toList),
  ((plainString "Overlay", overlayTree [(plainString "/a", plainString "cA==")]),
    "\"Overlay\"".toList, "\x7b\"/a\":\"cA==\"\x7d".toList),
  ((plainString "Env", .array [.string ⟨[.byte 0x41, .byte 0x3D, .unit 0x31], none⟩] none),
    "\"Env\"".toList, "[\"A=\\u0031\"]".toList),
  ((plainString "BuildFlags", .array [] none), "\"BuildFlags\"".toList, "[]".toList),
  ((plainString "Mode", .number ⟨false, [7], none, none⟩), "\"Mode\"".toList, " 7".toList)]

def sampleText : String :=
  "\x7b\"x\":[null],\"Overlay\":\x7b\"/a\":\"cA==\"\x7d,\"Env\":[\"A=\\u0031\"],\"BuildFlags\":[],\"Mode\": 7\x7d"

theorem sample_encoded : Encodes sample (sampleRows.map (·.1)) where
  named := by
    simp only [sampleRows, List.map_cons, List.map_nil, List.forall_mem_cons, List.not_mem_nil,
      false_implies, implies_true, textOf_plainString_iff, exists_eq', and_self]
  once := by
    have apart {s t : String} (differ : s ≠ t) (field : Field) (first : s = field.name) :
        ¬ t = field.name := fun second => differ (first.trans second.symm)
    simp only [sampleRows, List.map_cons, List.map_nil, List.pairwise_cons, List.forall_mem_cons,
      textOf_plainString_iff, List.not_mem_nil, false_implies, implies_true, List.Pairwise.nil,
      and_true]
    exact ⟨⟨apart (by decide), apart (by decide), apart (by decide), apart (by decide)⟩,
      ⟨apart (by decide), apart (by decide), apart (by decide)⟩,
      ⟨apart (by decide), apart (by decide)⟩, apart (by decide)⟩
  written := by
    have key : TextOf ⟨[.byte 0x41, .byte 0x3D, .unit 0x31], none⟩ "A=1" :=
      ⟨rfl, .bytes 'A' (.bytes '=' (.unit '1' .nil))⟩
    simp only [sampleRows, List.map_cons, List.map_nil, List.forall_mem_cons, textOf_plainString_iff,
      List.not_mem_nil, false_implies, implies_true, and_true]
    refine ⟨?unknown, ?overlay, ?env, ?buildFlags, ?mode⟩
    case unknown =>
      intro field same
      cases field <;> exact absurd same (by decide)
    case overlay =>
      intro field same
      cases field with
      | overlay =>
        have encoded : "cA==" = String.ofList (Base64.encode [112]) := by decide
        exact .overlay (@OverlayTree.files _ [(⟨"/a"⟩, [112])] _ (.refl _)
          (.cons ⟨textOf_plainString "/a", textOf_plainString_iff.mpr encoded⟩ .nil))
      | _ => exact absurd same (by decide)
    case env =>
      intro field same
      cases field with
      | env => exact .env (.items (.cons key .nil))
      | _ => exact absurd same (by decide)
    case buildFlags =>
      intro field same
      cases field with
      | buildFlags => exact .buildFlags (.items .nil)
      | _ => exact absurd same (by decide)
    case mode =>
      intro field same
      cases field with
      | mode => exact .mode rfl
      | _ => exact absurd same (by decide)
  leftOut := by
    have known {field : Field} (listed : plainString field.name ∈ sampleRows.map (·.1.1))
        (absent : ∀ member ∈ sampleRows.map (·.1), ¬ TextOf member.1 field.name) :
        Blank sample field := by
      obtain ⟨row, inside, same⟩ := List.mem_map.mp listed
      exact absurd (same ▸ textOf_plainString field.name)
        (absent row.1 (List.mem_map_of_mem inside))
    intro field
    cases field with
    | tests => exact fun _ => rfl
    | _ => exact known (by decide)

theorem sample_spelled : Spelled (.object (sampleRows.map (·.1)) none) sampleText.toList := by
  have nothing : Space [] := List.forall_mem_nil _
  have text : sampleText.toList =
      '\x7b' :: withCommas (sampleRows.map fun row => row.2.1 ++ ':' :: row.2.2) ++ ['\x7d'] := by
    decide +kernel
  have escape : PiecesText [.byte 0x41, .byte 0x3D, .unit 0x31] "A=\\u0031".toList := by
    refine @PiecesText.self 'A' _ _ (by decide) (by decide) (by decide) ?_
    refine @PiecesText.self '=' _ _ (by decide) (by decide) (by decide) ?_
    exact @PiecesText.unit ('0', 0) ('0', 0) ('3', 3) ('1', 1) _ _ (by decide) .nil
  have key {s : String} (plain : s.toList.all fun c => c ≠ '"' ∧ c ≠ '\\' ∧ ¬ c.toNat < 0x20) :=
    plainString_spelled plain
  rw [text]
  refine .object (by simp [sampleRows]) ?_ ?_
  · simp only [sampleRows, List.forall_mem_cons, List.not_mem_nil, false_implies, implies_true,
      and_true]
    exact ⟨@key "x" (by decide), @key "Overlay" (by decide), @key "Env" (by decide),
      @key "BuildFlags" (by decide), @key "Mode" (by decide)⟩
  · simp only [sampleRows, List.forall_mem_cons, List.not_mem_nil, false_implies, implies_true,
      and_true]
    have one {α : Type} {p : α → Prop} {a : α} (own : p a) : ∀ b ∈ [a], p b :=
      List.forall_mem_singleton.mpr own
    refine ⟨?unknown, ?overlay, ?env, .emptyArray nothing, ?mode⟩
    case unknown => exact @Spelled.array [(.null, "null".toList)] (by simp) (one .null)
    case overlay =>
      exact @Spelled.object [((plainString "/a", .string (plainString "cA==")), "\"/a\"".toList,
        "\"cA==\"".toList)] (by simp) (one (@key "/a" (by decide)))
        (one (.string (@key "cA==" (by decide))))
    case env =>
      exact @Spelled.array [(.string ⟨[.byte 0x41, .byte 0x3D, .unit 0x31], none⟩,
        "\"A=\\u0031\"".toList)] (by simp) (one (.string (.key nothing nothing escape)))
    case mode =>
      have seven : NumberText ⟨false, [7], none, none⟩ ['7'] :=
        .number false ⟨by decide, by decide⟩ (by decide) .none .none
      exact @Spelled.padded _ [' '] ['7'] [] (one (by decide)) nothing (.number seven)

theorem sample_reads : Encodes sample (sampleRows.map (·.1)) ∧
    Spelled (.object (sampleRows.map (·.1)) none) sampleText.toList ∧
    Request.read (utf8Bytes sampleText) = .ok sample := by
  have listed : ∀ member ∈ sampleRows.map (·.1), ¬ NullList member := by
    simp only [sampleRows, List.map_cons, List.map_nil, List.forall_mem_cons, NullList, overlayTree,
      reduceCtorEq, false_and, not_false_eq_true, List.not_mem_nil, false_implies, implies_true,
      and_self]
  exact ⟨sample_encoded, sample_spelled,
    (written_request_reads sample_encoded sample_spelled).1 listed⟩

/-- The blank request, as a client writes it that has no list for the environment. -/
def nullText : String :=
  "\x7b\"Env\":null\x7d"

theorem null_environment_refused : Encodes {} [(plainString "Env", .null)] ∧
    Spelled (.object [(plainString "Env", .null)] none) nullText.toList ∧
    Request.read (utf8Bytes nullText) = .error (.wrongType "null" "a sequence") := by
  have one {α : Type} {p : α → Prop} {a : α} (own : p a) : ∀ b ∈ [a], p b :=
    List.forall_mem_singleton.mpr own
  have spelled : Spelled (.object [(plainString "Env", .null)] none) nullText.toList :=
    @Spelled.object [((plainString "Env", .null), "\"Env\"".toList, "null".toList)] (by simp)
      (one (plainString_spelled (by decide))) (one .null)
  have encodes : Encodes {} [(plainString "Env", .null)] := by
    refine ⟨⟨one ⟨_, textOf_plainString "Env"⟩, List.pairwise_singleton .., one fun field key => ?_⟩,
      fun field absent => ?_⟩
    · have same := textOf_plainString_iff.mp key
      cases field with
      | env => exact .env .null
      | _ => exact absurd same (by decide)
    · cases field <;> rfl
  have document : Document.read (utf8Bytes nullText) =
    ⟨.object [(plainString "Env", .null)] none, false⟩ := read_spelled spelled
  have refused := @readMember_named {} (plainString "Env", .null) "Env" (textOf_plainString "Env")
  refine ⟨encodes, spelled, ?_⟩
  rw [Request.read, document]
  simp only [Fields.read, List.foldlM_cons, refused]
  rfl

end PackageLoader.RequestReading
