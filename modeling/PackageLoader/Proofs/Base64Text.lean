import PackageLoader.Text.Base64
import PackageLoader.Proofs.Utf8Text

/-! Bytes and their written form determine each other: what was written is read back, and nothing else
is read. -/
namespace PackageLoader.Base64Text
open Text Base64
open Utf8Text (byte_toNat)

/-! ## Digits -/

theorem digit?_digit : ∀ n < 64, digit? (digit n) = some n ∧ digit n ≠ '=' := by
  decide +kernel

/-- A digit is that of its value. -/
theorem digit?_eq_some {c : Char} {n : Nat} (read : digit? c = some n) : n < 64 ∧ c = digit n := by
  have ascii : c.toNat < 0x80 := by
    have within {a b : Char} (bound : b.toNat < 0x80) (range : a ≤ c ∧ c ≤ b) : c.toNat < 0x80 :=
      Nat.lt_of_le_of_lt range.2 bound
    unfold digit? at read
    split at read
    · rename_i range
      exact within (by decide) range
    split at read
    · rename_i range
      exact within (by decide) range
    split at read
    · rename_i range
      exact within (by decide) range
    split at read
    · rename_i same
      rw [same]
      decide
    split at read
    · rename_i same
      rw [same]
      decide
    · cases read
  have table : ∀ code < 0x80,
      (digit? (Char.ofNat code)).all fun n => n < 64 && Char.ofNat code = digit n := by
    decide +kernel
  have entry := table c.toNat ascii
  rw [Char.ofNat_toNat, read] at entry
  simpa using entry

/-! ## Groups -/

/-- What was written is read back. -/
theorem decode?_encode (bytes : Bytes) : decode? (encode bytes) = some bytes := by
  have value {n : Nat} (b : UInt8) (same : n = b.toNat) : UInt8.ofNat n = b := by
    rw [same, UInt8.ofNat_toNat]
  induction bytes using encode.induct with
  | case1 => rfl
  | case2 a =>
    have first := a.toNat_lt
    obtain ⟨x, -⟩ := digit?_digit (a.toNat / 4) (by omega)
    obtain ⟨y, -⟩ := digit?_digit (a.toNat % 4 * 16) (by omega)
    simp only [encode, decode?, x, y, Option.bind_eq_bind, Option.bind_some]
    rw [if_pos (by omega), value a (by omega)]
  | case3 a b =>
    have first := a.toNat_lt
    have second := b.toNat_lt
    obtain ⟨x, -⟩ := digit?_digit (a.toNat / 4) (by omega)
    obtain ⟨y, -⟩ := digit?_digit (a.toNat % 4 * 16 + b.toNat / 16) (by omega)
    obtain ⟨z, plain⟩ := digit?_digit (b.toNat % 16 * 4) (by omega)
    rw [encode, decode?.eq_3 _ _ _ plain]
    simp only [x, y, z, Option.bind_eq_bind, Option.bind_some]
    rw [if_pos (by omega), value a (by omega), value b (by omega)]
  | case4 a b c rest ih =>
    have first := a.toNat_lt
    have second := b.toNat_lt
    have third := c.toNat_lt
    obtain ⟨x, -⟩ := digit?_digit (a.toNat / 4) (by omega)
    obtain ⟨y, -⟩ := digit?_digit (a.toNat % 4 * 16 + b.toNat / 16) (by omega)
    obtain ⟨z, -⟩ := digit?_digit (b.toNat % 16 * 4 + c.toNat / 64) (by omega)
    obtain ⟨w, plain⟩ := digit?_digit (c.toNat % 64) (by omega)
    rw [encode, decode?.eq_4 _ _ _ _ _ (fun _ pad _ => plain pad) fun pad _ => plain pad]
    simp only [x, y, z, w, ih, Option.bind_eq_bind, Option.bind_some]
    rw [value a (by omega), value b (by omega), value c (by omega)]

/-- Nothing is read but what was written. -/
theorem encode_of_decode? {cs : List Char} {bytes : Bytes} (read : decode? cs = some bytes) :
    cs = encode bytes := by
  induction cs using decode?.induct generalizing bytes with
  | case1 =>
    cases read
    rfl
  | case2 a b =>
    simp only [decode?, Option.bind_eq_bind, Option.bind_eq_some_iff] at read
    obtain ⟨x, first, y, second, read⟩ := read
    obtain ⟨xBound, rfl⟩ := digit?_eq_some first
    obtain ⟨yBound, rfl⟩ := digit?_eq_some second
    split at read
    · cases read
      have front : (x * 4 + y / 16) / 4 = x := by omega
      have back : (x * 4 + y / 16) % 4 * 16 = y := by omega
      rw [encode, byte_toNat (by omega), front, back]
    · cases read
  | case3 a b c plain =>
    rw [decode?.eq_3 _ _ _ plain] at read
    simp only [Option.bind_eq_bind, Option.bind_eq_some_iff] at read
    obtain ⟨x, first, y, second, z, third, read⟩ := read
    obtain ⟨xBound, rfl⟩ := digit?_eq_some first
    obtain ⟨yBound, rfl⟩ := digit?_eq_some second
    obtain ⟨zBound, rfl⟩ := digit?_eq_some third
    split at read
    · cases read
      have front : (x * 4 + y / 16) / 4 = x := by omega
      have middle : (x * 4 + y / 16) % 4 * 16 + (y % 16 * 16 + z / 4) / 16 = y := by omega
      have back : (y % 16 * 16 + z / 4) % 16 * 4 = z := by omega
      rw [encode, byte_toNat (by omega), byte_toNat (by omega), front, middle, back]
    · cases read
  | case4 a b c d rest notTwo notOne ih =>
    rw [decode?.eq_4 _ _ _ _ _ notTwo notOne] at read
    simp only [Option.bind_eq_bind, Option.bind_eq_some_iff, Option.some.injEq] at read
    obtain ⟨x, first, y, second, z, third, w, fourth, tail, later, rfl⟩ := read
    obtain ⟨xBound, rfl⟩ := digit?_eq_some first
    obtain ⟨yBound, rfl⟩ := digit?_eq_some second
    obtain ⟨zBound, rfl⟩ := digit?_eq_some third
    obtain ⟨wBound, rfl⟩ := digit?_eq_some fourth
    have front : (x * 4 + y / 16) / 4 = x := by omega
    have middle : (x * 4 + y / 16) % 4 * 16 + (y % 16 * 16 + z / 4) / 16 = y := by omega
    have back : (y % 16 * 16 + z / 4) % 16 * 4 + (z % 4 * 64 + w) / 64 = z := by omega
    have last : (z % 4 * 64 + w) % 64 = w := by omega
    rw [encode, byte_toNat (by omega), byte_toNat (by omega), byte_toNat (by omega), front, middle,
      back, last, ← ih later]
  | case5 cs empty two one four =>
    rw [decode?.eq_5 cs empty two one four] at read
    cases read

end PackageLoader.Base64Text
