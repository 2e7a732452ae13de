import PackageLoader.Json.Document
import PackageLoader.Json.Text
import PackageLoader.Proofs.Utf8Text

/-! The value that is read from a JSON text, and the steps of the reader: the pieces that it takes up
inside a string, what ends a number, and what one token does to the stack. -/
namespace PackageLoader.JsonText
open Json Text Utf8Text

/-! ## Values of trees -/

/-- The value of a number without sign, fraction and exponent. -/
def natural? (n : Number) : Option Nat :=
  if n.negative || n.fraction?.isSome || n.exponent?.isSome then none else some (ofDigits n.whole)

mutual

/-- The value that was read, if there is no fault in it and its numbers are natural. -/
def valueOf? : Tree → Option Value
  | .null => some .null
  | .boolean b => some (.boolean b)
  | .number n => (natural? n).map .natural
  | .string s => s.text.toOption.map .string
  | .array items none => (itemsOf? items).map .array
  | .object members none => (membersOf? members).map .object
  | _ => none

/-- The values of the items of an array. -/
def itemsOf? : List Tree → Option (List Value)
  | [] => some []
  | item :: rest => do return (← valueOf? item) :: (← itemsOf? rest)

/-- The members of an object. -/
def membersOf? : List (RawString × Tree) → Option (List (String × Value))
  | [] => some []
  | member :: rest => do return (← memberOf? member) :: (← membersOf? rest)

/-- A member of an object. -/
def memberOf? : RawString × Tree → Option (String × Value)
  | (key, value) => do return (← key.text.toOption, ← valueOf? value)

end

/-- The value that a text spells. -/
def read? (text : Bytes) : Option Value :=
  let document := Document.read text
  if document.trailing then none else valueOf? document.tree

/-! ## Strings -/

theorem bytesOf_bytes (fault? : Option Fault) (bytes : Bytes) (more : List Piece) :
    RawString.bytesOf fault? (bytes.map .byte ++ more) =
      (RawString.bytesOf fault? more).map (bytes ++ ·) := by
  induction bytes with
  | nil => cases read : RawString.bytesOf fault? more <;> simp [read, Except.map]
  | cons b bytes ih =>
    rw [List.map_cons, List.cons_append, RawString.bytesOf, ih]
    cases RawString.bytesOf fault? more <;> rfl

theorem readString_backslash (e : UInt8) (rest : Bytes) (plain : isCode 'u' e = false) {b : UInt8}
    (means : simpleEscape? e = some b) :
    readString (0x5C :: e :: rest) = withPiece (.byte b) (readString rest) := by
  have quote : isCode '"' 0x5C = false := by decide
  have backslash : isCode '\\' 0x5C = true := by decide
  rw [readString.eq_def]
  simp only [quote, backslash, plain, means, Bool.false_eq_true, ↓reduceIte]

/-- Bytes that stand for themselves inside a string. -/
theorem readString_plain {bytes : Bytes}
    (plain : ∀ b ∈ bytes, isCode '"' b = false ∧ isCode '\\' b = false ∧ ¬ b < 0x20) (rest : Bytes) :
    readString (bytes ++ rest) = (bytes.map .byte).foldr withPiece (readString rest) := by
  induction bytes with
  | nil => rfl
  | cons b bytes ih =>
    obtain ⟨quote, backslash, control⟩ := plain b (List.mem_cons_self ..)
    rw [List.cons_append, readString.eq_def]
    simp only [quote, backslash, control, Bool.false_eq_true, ↓reduceIte]
    rw [ih fun b member => plain b (List.mem_cons_of_mem _ member)]
    rfl

/-- A character that needs no escape is taken up byte by byte. -/
theorem readString_self {c : Char} (quote : c ≠ '"') (backslash : c ≠ '\\') (control : ¬ c.toNat < 0x20)
    (rest : Bytes) : readString (String.utf8EncodeChar c ++ rest) =
      ((String.utf8EncodeChar c).map .byte).foldr withPiece (readString rest) := by
  apply readString_plain
  intro b member
  simp only [isCode, decide_eq_false_iff_not, UInt8.lt_iff_toNat_lt, UInt8.reduceToNat]
  by_cases ascii : c.toNat < 0x80
  · rw [encode_ascii ascii, List.mem_singleton] at member
    rw [member, byte_toNat (by omega)]
    exact ⟨fun same => quote (Char.toNat_inj.mp same), fun same => backslash (Char.toNat_inj.mp same),
      control⟩
  · have high := encode_beyond (Nat.not_lt.mp ascii) b member
    exact ⟨by simp; omega, by simp; omega, by omega⟩

theorem foldr_withPiece (pieces : List Piece) (read : RawString × Bytes) :
    pieces.foldr withPiece read = (⟨pieces ++ read.1.pieces, read.1.fault?⟩, read.2) := by
  induction pieces with
  | nil => rfl
  | cons piece pieces ih => rw [List.foldr_cons, ih]; rfl

/-! ## Numbers -/

/-- What does not go on with a number. -/
def Ends (rest : Bytes) : Prop :=
  ∀ b, rest.head? = some b →
    isDigit b = false ∧ isCode '.' b = false ∧ isCode 'e' b = false ∧ isCode 'E' b = false

/-- Punctuation ends a number. -/
theorem ends_cons {b : UInt8} (rest : Bytes) (mark : isDigit b = false ∧ isCode '.' b = false ∧
    isCode 'e' b = false ∧ isCode 'E' b = false) : Ends (b :: rest) := by
  intro first same
  cases same
  exact mark

theorem after?_none {marks : List Char} {cs : Bytes}
    (other : ∀ b, cs.head? = some b → ∀ mark ∈ marks, isCode mark b = false) :
    after? marks cs = none := by
  cases cs with
  | nil => rfl
  | cons b rest =>
    rw [after?, if_neg]
    simpa using other b rfl

/-! ## Values -/

/-- The state of the reader behind some more text. -/
def run (state : Reading) (text : Bytes) : Reading :=
  (tokens text).foldl Reading.next state

/-- A token is read and the text goes on behind it. -/
theorem run_token (frames : List Frame) {b : UInt8} (filled : isBlankByte b = false) (rest : Bytes) :
    run (.inside frames) (b :: rest) =
      run (step frames (readToken b rest).1) (readToken b rest).2 := by
  rw [run, tokens]
  simp only [filled, Bool.false_eq_true, ↓reduceIte]
  rfl

theorem filled_of_punctuation {b : UInt8} {token : Token} (mark : punctuation? b = some token) :
    isBlankByte b = false := by
  cases blank : isBlankByte b with
  | false => rfl
  | true =>
    simp only [isBlankByte, isCode, Bool.or_eq_true, decide_eq_true_eq] at blank
    rcases blank with ((code | code) | code) | code <;> simp [punctuation?, isCode, code] at mark

/-- Punctuation is one byte. -/
theorem run_mark (frames : List Frame) (token : Token) {b : UInt8} (mark : punctuation? b = some token)
    (rest : Bytes) : run (.inside frames) (b :: rest) = run (step frames token) rest := by
  rw [run_token frames (filled_of_punctuation mark), readToken, mark]

/-- The innermost frame waits for a value, or there is none. -/
def Wants : List Frame → Prop
  | [] | .array _ .first :: _ | .array _ .item :: _ | .object _ (.value _) :: _ => True
  | _ => False

theorem step_wants {frames : List Frame} (wants : Wants frames) {token : Token}
    (inner : token ≠ .closeArray) : step frames token = startValue frames token := by
  unfold Wants at wants
  split at wants
  · rfl
  · cases token <;> first | rfl | exact absurd rfl inner
  · rfl
  · rfl
  · cases wants

/-- A value without parts is put where a value is wanted. -/
theorem run_scalar {frames : List Frame} (wants : Wants frames) {b : UInt8} {rest after : Bytes}
    {value : Tree} (filled : isBlankByte b = false)
    (token : readToken b rest = (.scalar value, after)) (sound : value.fault? = none) :
    run (.inside frames) (b :: rest) = run (place value frames) after := by
  rw [run_token frames filled, token, step_wants wants (by simp), startValue, placeScalar, sound]

/-- A digit starts a number. -/
theorem readToken_digit {b : UInt8} (digit : isDigit b = true) (rest : Bytes) :
    isBlankByte b = false ∧ readToken b rest = readNumber (b :: rest) := by
  have range := digit
  simp only [Json.isDigit, Bool.and_eq_true, decide_eq_true_eq, Char.reduceToNat] at range
  have other {c : Char} (outside : c.toNat < 0x30 ∨ 0x39 < c.toNat) : isCode c b = false := by
    simp only [isCode, decide_eq_false_iff_not]
    omega
  refine ⟨?_, ?_⟩
  · simp only [isBlankByte, other (c := ' ') (by decide), other (c := '\t') (by decide),
      other (c := '\n') (by decide), other (c := '\r') (by decide), Bool.or_self]
  · simp only [readToken, punctuation?, other (c := '[') (by decide), other (c := ']') (by decide),
      other (c := '\x7b') (by decide), other (c := '\x7d') (by decide), other (c := ',') (by decide),
      other (c := ':') (by decide), other (c := '"') (by decide), digit, Bool.or_true,
      Bool.false_eq_true, ↓reduceIte]

/-- Behind the last item of an array, and between two of them. -/
theorem withCommas_cons (first : List Char) (rest : List (List Char)) :
    withCommas (first :: rest) =
      first ++ if rest = [] then [] else ',' :: withCommas rest := by
  cases rest with
  | nil => simp [withCommas]
  | cons second rest => simp [withCommas, List.intersperse_cons_cons]

end PackageLoader.JsonText
