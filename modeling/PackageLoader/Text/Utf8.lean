/-!
UTF-8 as a sequence of units: each unit is a scalar value or an ill-formed run. An ill-formed run
is a maximal one: the longest start of some encoding that the bytes leave unfinished, or one byte
that starts none. Strict decoding refuses such runs; lossy decoding writes a replacement character
for each.
-/
namespace PackageLoader.Text

/-- Raw bytes. -/
abbrev Bytes := List UInt8

/-- The encoding of a text. -/
def utf8Bytes (s : String) : Bytes :=
  s.toList.flatMap String.utf8EncodeChar

/-- The encoded length of a list of characters. -/
def utf8Length (cs : List Char) : Nat :=
  cs.foldl (fun length c => length + c.utf8Size) 0

theorem foldl_utf8Size (cs : List Char) (n : Nat) :
    cs.foldl (fun length c => length + c.utf8Size) n = n + utf8Length cs := by
  unfold utf8Length
  induction cs generalizing n with
  | nil => rfl
  | cons c cs ih =>
    rw [List.foldl_cons, List.foldl_cons, ih, ih (0 + _)]
    omega

theorem utf8Length_append (a b : List Char) :
    utf8Length (a ++ b) = utf8Length a + utf8Length b := by
  rw [utf8Length, List.foldl_append, foldl_utf8Size]
  rfl

/-- What a lead byte announces: how many bytes follow, the bounds of the first of them and the
bits of the scalar value that it holds itself. -/
structure Utf8Lead where
  follow : Nat
  low : UInt8
  high : UInt8
  bits : Nat

/-- Bytes that never start an encoding longer than one byte announce nothing. -/
def utf8Lead? (b : UInt8) : Option Utf8Lead :=
  if b < 0xC2 then none
  else if b ≤ 0xDF then some ⟨1, 0x80, 0xBF, b.toNat - 0xC0⟩
  else if b = 0xE0 then some ⟨2, 0xA0, 0xBF, 0⟩
  else if b = 0xED then some ⟨2, 0x80, 0x9F, 0xD⟩
  else if b ≤ 0xEF then some ⟨2, 0x80, 0xBF, b.toNat - 0xE0⟩
  else if b = 0xF0 then some ⟨3, 0x90, 0xBF, 0⟩
  else if b ≤ 0xF3 then some ⟨3, 0x80, 0xBF, b.toNat - 0xF0⟩
  else if b = 0xF4 then some ⟨3, 0x80, 0x8F, 4⟩
  else none

/-- Reads the remaining bytes of an encoding, giving `none` for the value at the first byte out of
bounds, which is left unread. -/
def utf8Follow : Nat → UInt8 → UInt8 → Nat → Bytes → Option Char × Bytes
  | 0, _, _, value, tail => (some (Char.ofNat value), tail)
  | _ + 1, _, _, _, [] => (none, [])
  | n + 1, low, high, value, b :: tail =>
    if low ≤ b ∧ b ≤ high then
      utf8Follow n 0x80 0xBF (value * 0x40 + (b.toNat - 0x80)) tail
    else (none, b :: tail)

theorem utf8Follow_length_le (n : Nat) (low high : UInt8) (value : Nat) (tail : Bytes) :
    (utf8Follow n low high value tail).2.length ≤ tail.length := by
  induction n generalizing low high value tail with
  | zero => simp [utf8Follow]
  | succ n ih =>
    cases tail with
    | nil => simp [utf8Follow]
    | cons b tail =>
      simp only [utf8Follow]
      split
      · exact Nat.le_succ_of_le (ih _ _ _ _)
      · exact Nat.le_refl _

/-- Reads the unit that starts with the given byte. -/
def utf8Unit (b : UInt8) (tail : Bytes) : Option Char × Bytes :=
  if b < 0x80 then (some (Char.ofNat b.toNat), tail)
  else match utf8Lead? b with
    | none => (none, tail)
    | some lead => utf8Follow lead.follow lead.low lead.high lead.bits tail

theorem utf8Unit_length_le (b : UInt8) (tail : Bytes) :
    (utf8Unit b tail).2.length ≤ tail.length := by
  unfold utf8Unit
  split
  · exact Nat.le_refl _
  · split
    · exact Nat.le_refl _
    · exact utf8Follow_length_le _ _ _ _ _

/-- The units of a byte sequence: a character, or `none` for an ill-formed run. -/
def utf8Units : Bytes → List (Option Char)
  | [] => []
  | b :: tail =>
    have := utf8Unit_length_le b tail
    (utf8Unit b tail).1 :: utf8Units (utf8Unit b tail).2
termination_by bytes => bytes.length
decreasing_by simp only [List.length_cons]; omega

/-- `from_utf8_lossy`: lossy decoding never fails: every ill-formed run becomes U+FFFD. -/
def decodeLossy (bytes : Bytes) : String :=
  String.ofList ((utf8Units bytes).map (·.getD '\uFFFD'))

/-- `from_utf8`: strict decoding refuses any ill-formed run. -/
def decodeUtf8? (bytes : Bytes) : Option String :=
  ((utf8Units bytes).mapM id).map String.ofList

end PackageLoader.Text
