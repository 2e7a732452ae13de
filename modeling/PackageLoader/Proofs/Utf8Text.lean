import PackageLoader.Text.Utf8

/-! Decoding undoes encoding. The lead byte of a character announces exactly the bytes that encoding
put behind it, so the character is read back whatever follows, and a text is what its bytes decode to.
Bytes below 0x80 are characters by themselves and are part of no other one. -/
namespace PackageLoader.Utf8Text
open Text

/-- A number below 0x100 is the value of its byte. -/
theorem byte_toNat {n : Nat} (byte : n < 0x100) : (UInt8.ofNat n).toNat = n :=
  UInt8.toNat_ofNat_of_lt' byte

/-! ## Characters -/

/-- A lead byte of an encoding with two bytes. -/
theorem utf8Lead?_two {n : Nat} (low : 0xC2 ≤ n) (high : n ≤ 0xDF) :
    utf8Lead? (.ofNat n) = some ⟨1, 0x80, 0xBF, n - 0xC0⟩ := by
  have value := byte_toNat (n := n) (by omega)
  unfold utf8Lead?
  simp only [UInt8.lt_iff_toNat_lt, UInt8.le_iff_toNat_le, value, UInt8.reduceToNat]
  rw [if_neg (by omega), if_pos high]

/-- A lead byte of an encoding with three bytes. The first and the last of them but one leave the byte
behind them less room. -/
theorem utf8Lead?_three {n : Nat} (low : 0xE0 ≤ n) (high : n ≤ 0xEF) :
    utf8Lead? (.ofNat n) = some ⟨2, if n = 0xE0 then 0xA0 else 0x80, if n = 0xED then 0x9F else 0xBF,
      n - 0xE0⟩ := by
  have value := byte_toNat (n := n) (by omega)
  unfold utf8Lead?
  simp only [UInt8.lt_iff_toNat_lt, UInt8.le_iff_toNat_le, ← UInt8.toNat_inj, value,
    UInt8.reduceToNat]
  rw [if_neg (by omega), if_neg (by omega)]
  by_cases first : n = 0xE0
  · simp [first]
  by_cases surrogates : n = 0xED
  · simp [surrogates]
  · simp [first, surrogates, high]

/-- A lead byte of an encoding with four bytes. -/
theorem utf8Lead?_four {n : Nat} (low : 0xF0 ≤ n) (high : n ≤ 0xF4) :
    utf8Lead? (.ofNat n) = some ⟨3, if n = 0xF0 then 0x90 else 0x80, if n = 0xF4 then 0x8F else 0xBF,
      n - 0xF0⟩ := by
  have value := byte_toNat (n := n) (by omega)
  unfold utf8Lead?
  simp only [UInt8.lt_iff_toNat_lt, UInt8.le_iff_toNat_le, ← UInt8.toNat_inj, value,
    UInt8.reduceToNat]
  rw [if_neg (by omega), if_neg (by omega), if_neg (by omega), if_neg (by omega), if_neg (by omega)]
  by_cases first : n = 0xF0
  · simp [first]
  by_cases last : n = 0xF4
  · simp [last]
  · rw [if_neg first, if_pos (by omega), if_neg first, if_neg last]

/-- A byte within its bounds adds six bits. -/
theorem utf8Follow_byte {n k value : Nat} {low high : UInt8} {tail : Bytes} (byte : k < 0x40)
    (above : low.toNat ≤ k + 0x80) (below : k + 0x80 ≤ high.toNat) :
    utf8Follow (n + 1) low high value (.ofNat (k + 0x80) :: tail) =
      utf8Follow n 0x80 0xBF (value * 0x40 + k) tail := by
  have number := byte_toNat (n := k + 0x80) (by omega)
  have inside : low ≤ .ofNat (k + 0x80) ∧ .ofNat (k + 0x80) ≤ high := by
    rw [UInt8.le_iff_toNat_le, UInt8.le_iff_toNat_le, number]
    exact ⟨above, below⟩
  rw [utf8Follow, if_pos inside, number, Nat.add_sub_cancel]

/-- Reads a unit that starts with a lead byte. -/
theorem utf8Unit_lead {n follow bits : Nat} {low high : UInt8} (byte : n < 0x100) (beyond : 0x80 ≤ n)
    (announced : utf8Lead? (.ofNat n) = some ⟨follow, low, high, bits⟩) (tail : Bytes) :
    utf8Unit (.ofNat n) tail = utf8Follow follow low high bits tail := by
  have beyond : ¬ UInt8.ofNat n < 0x80 := by
    rw [UInt8.lt_iff_toNat_lt, byte_toNat byte]
    exact Nat.not_lt.mpr beyond
  rw [utf8Unit, if_neg beyond, announced]

/-- The first byte of a character announces the others, and all of them together spell it. -/
theorem utf8Unit_encode (c : Char) (rest : Bytes) : ∃ b tail,
    String.utf8EncodeChar c ++ rest = b :: tail ∧ utf8Unit b tail = (some c, rest) := by
  have spelled : Char.ofNat c.val.toNat = c := Char.ofNat_toNat c
  have valid : c.val.toNat < 0xD800 ∨ 0xDFFF < c.val.toNat ∧ c.val.toNat < 0x110000 := c.valid
  rw [String.utf8EncodeChar.eq_1]
  generalize c.val.toNat = v at spelled valid
  rw [← spelled]
  have digit (k : Nat) : k % 64 < 0x40 := Nat.mod_lt _ (by decide)
  split
  · rename_i ascii
    have value := byte_toNat (n := v) (by omega)
    have below : UInt8.ofNat v < 0x80 := by
      rw [UInt8.lt_iff_toNat_lt, value]
      exact Nat.lt_succ_of_le ascii
    refine ⟨.ofNat v, rest, rfl, ?_⟩
    rw [utf8Unit, if_pos below, value]
  split
  · refine ⟨_, _, List.cons_append, ?_⟩
    rw [utf8Unit_lead (by omega) (by omega) (utf8Lead?_two (by omega) (by omega)), List.cons_append,
      utf8Follow_byte (digit v) (by simp) (by simp; omega), List.nil_append, utf8Follow]
    congr 3
    omega
  split
  · refine ⟨_, _, List.cons_append, ?_⟩
    rw [utf8Unit_lead (by omega) (by omega) (utf8Lead?_three (by omega) (by omega)),
      List.cons_append, utf8Follow_byte (digit (v / 64)) (by split <;> simp; omega)
        (by split <;> simp <;> omega), List.cons_append,
      utf8Follow_byte (digit v) (by simp) (by simp; omega), List.nil_append, utf8Follow]
    congr 3
    omega
  · refine ⟨_, _, List.cons_append, ?_⟩
    rw [utf8Unit_lead (by omega) (by omega) (utf8Lead?_four (by omega) (by omega)),
      List.cons_append, utf8Follow_byte (digit (v / 4096)) (by split <;> simp; omega)
        (by split <;> simp <;> omega), List.cons_append,
      utf8Follow_byte (digit (v / 64)) (by simp) (by simp; omega), List.cons_append,
      utf8Follow_byte (digit v) (by simp) (by simp; omega), List.nil_append, utf8Follow]
    congr 3
    omega

/-- A character in front of some bytes is the first unit of all of them. -/
theorem utf8Units_encode (c : Char) (rest : Bytes) :
    utf8Units (String.utf8EncodeChar c ++ rest) = some c :: utf8Units rest := by
  obtain ⟨b, tail, bytes, unit⟩ := utf8Unit_encode c rest
  rw [bytes, utf8Units, unit]

/-- An ASCII character is its own only byte. -/
theorem encode_ascii {c : Char} (ascii : c.toNat < 0x80) :
    String.utf8EncodeChar c = [.ofNat c.toNat] := by
  have low : c.val.toNat ≤ 127 := Nat.le_of_lt_succ ascii
  rw [String.utf8EncodeChar.eq_1, if_pos low]
  rfl

/-- The bytes of any other character are beyond ASCII. -/
theorem encode_beyond {c : Char} (beyond : 0x80 ≤ c.toNat) :
    ∀ b ∈ String.utf8EncodeChar c, 0x80 ≤ b.toNat := by
  have bound : c.val.toNat < 0x110000 := by
    rcases c.valid with low | high
    · exact Nat.lt_trans low (by decide)
    · exact high.2
  have high : ¬ c.val.toNat ≤ 127 := Nat.not_le.mpr beyond
  have byte {n : Nat} (above : 0x80 ≤ n) (below : n < 0x100) : 0x80 ≤ (UInt8.ofNat n).toNat := by
    rwa [byte_toNat below]
  rw [String.utf8EncodeChar.eq_1, if_neg high]
  generalize c.val.toNat = v at *
  split
  · simp only [List.mem_cons, List.not_mem_nil, or_false, forall_eq_or_imp, forall_eq]
    exact ⟨byte (by omega) (by omega), byte (by omega) (by omega)⟩
  split
  · simp only [List.mem_cons, List.not_mem_nil, or_false, forall_eq_or_imp, forall_eq]
    exact ⟨byte (by omega) (by omega), byte (by omega) (by omega), byte (by omega) (by omega)⟩
  · simp only [List.mem_cons, List.not_mem_nil, or_false, forall_eq_or_imp, forall_eq]
    exact ⟨byte (by omega) (by omega), byte (by omega) (by omega), byte (by omega) (by omega),
      byte (by omega) (by omega)⟩

/-! ## Texts -/

/-- The bytes of characters in order. -/
def encode (cs : List Char) : Bytes :=
  cs.flatMap String.utf8EncodeChar

@[simp] theorem encode_nil : encode [] = [] := rfl

@[simp] theorem encode_cons (c : Char) (cs : List Char) :
    encode (c :: cs) = String.utf8EncodeChar c ++ encode cs := rfl

@[simp] theorem encode_append (a b : List Char) : encode (a ++ b) = encode a ++ encode b :=
  List.flatMap_append

theorem utf8Units_text (cs : List Char) : utf8Units (encode cs) = cs.map some := by
  induction cs with
  | nil => rw [encode_nil, utf8Units, List.map_nil]
  | cons c rest ih => rw [encode_cons, utf8Units_encode, ih, List.map_cons]

/-- A text is what its bytes decode to. -/
theorem decodeUtf8?_encode (cs : List Char) : decodeUtf8? (encode cs) = some (String.ofList cs) := by
  have all : (cs.map some).mapM id = some cs := by
    induction cs with
    | nil => rfl
    | cons c rest ih => simp [List.mapM_cons, ih]
  rw [decodeUtf8?, utf8Units_text, all, Option.map_some]

end PackageLoader.Utf8Text
