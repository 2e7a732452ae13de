import PackageLoader.Proofs.JsonGrammar

/-! The text of a value is one of the texts that spell it, so whatever holds of spelled texts holds of
written ones. In particular every value is read back from its text. -/
namespace PackageLoader.JsonText
open Json Text Utf8Text JsonGrammar

/-! ## Strings -/

/-- The way in which a character is written spells it, in front of every text that is spelled. -/
theorem escaped_means {pieces : List Piece} {rest cs : List Char} (written : PiecesText pieces rest)
    (means : Means pieces cs) (c : Char) :
    ∃ longer, PiecesText longer (escaped c ++ rest) ∧ Means longer (c :: cs) := by
  have letter {mark : Char} (stands : (mark, c) ∈ escapes) :
      ∃ longer, PiecesText longer (['\\', mark] ++ rest) ∧ Means longer (c :: cs) :=
    ⟨_, .letter stands written, .bytes c means⟩
  unfold escaped
  split
  · rename_i same; subst same; exact letter (by decide)
  split
  · rename_i same; subst same; exact letter (by decide)
  split
  · rename_i same; subst same; exact letter (by decide)
  split
  · rename_i same; subst same; exact letter (by decide)
  split
  · rename_i same; subst same; exact letter (by decide)
  split
  · rename_i same; subst same; exact letter (by decide)
  split
  · rename_i same; subst same; exact letter (by decide)
  split
  · rename_i control
    have padded : ∀ n < 0x20, unitEscape n =
        ['\\', 'u', '0', '0', (n / 16).digitChar, (n % 16).digitChar] := by decide
    have digits : ∀ d < 16, (d.digitChar, d) ∈ JsonGrammar.hexDigits := by decide
    have zero := digits 0 (by decide)
    have high := digits (c.toNat / 16) (by omega)
    have low := digits (c.toNat % 16) (Nat.mod_lt _ (by decide))
    have unit := PiecesText.unit (a := ('0', 0)) (b := ('0', 0))
      (c := ((c.toNat / 16).digitChar, c.toNat / 16))
      (d := ((c.toNat % 16).digitChar, c.toNat % 16))
      (by simpa using ⟨zero, high, low⟩) written
    have value : ((0 * 16 + 0) * 16 + c.toNat / 16) * 16 + c.toNat % 16 = c.toNat := by omega
    rw [value] at unit
    exact ⟨_, padded c.toNat control ▸ unit, .unit c means⟩
  · rename_i quote backslash _ _ _ _ _ control
    exact ⟨_, .self quote backslash control written, .bytes c means⟩

/-- The text of a string is a string between quotes that means it. -/
theorem stringText_key (s : String) : ∃ raw, KeyText raw (stringText s) ∧ TextOf raw s := by
  have pieces (cs : List Char) :
      ∃ pieces, PiecesText pieces (cs.flatMap escaped) ∧ Means pieces cs := by
    induction cs with
    | nil => exact ⟨[], .nil, .nil⟩
    | cons c cs ih =>
      obtain ⟨later, written, means⟩ := ih
      exact escaped_means written means c
  obtain ⟨pieces, written, means⟩ := pieces s.toList
  have nothing : Space [] := List.forall_mem_nil _
  exact ⟨⟨pieces, none⟩, .key nothing nothing written, rfl, means⟩

/-! ## Numbers -/

/-- Only zero is written with a zero in front. -/
theorem toDigits_head {n : Nat} (positive : 0 < n) :
    ∃ c cs, Nat.toDigits 10 n = c :: cs ∧ c.toNat - '0'.toNat ≠ 0 := by
  induction n using Nat.strongRecOn with
  | ind n ih =>
    by_cases single : n < 10
    · refine ⟨n.digitChar, [], Nat.toDigits_of_lt_base single, ?_⟩
      rw [Nat.toNat_digitChar_of_lt_ten single]
      simp
      omega
    · obtain ⟨c, cs, front, nonzero⟩ := ih (n / 10) (by omega) (by omega)
      exact ⟨c, _, by rw [Nat.toDigits_of_base_le (by decide) (Nat.not_lt.mp single), front]; rfl,
        nonzero⟩

/-- The digits of a number spell it. -/
theorem ofDigits_toDigits (n : Nat) :
    ofDigits ((Nat.toDigits 10 n).map fun c => c.toNat - '0'.toNat) = n := by
  have spelled := Nat.ofDigitChars_ten_toDigits (n := n)
  rw [Nat.ofDigitChars_eq_foldl] at spelled
  rw [ofDigits, List.foldl_map]
  simpa only [Nat.mul_comm] using spelled

/-- A decimal digit is written as its value is. -/
theorem digit_value {c : Char} (digit : c.isDigit = true) :
    c.toNat - '0'.toNat < 10 ∧ (c.toNat - '0'.toNat).digitChar = c := by
  simp only [Char.isDigit, Bool.and_eq_true, decide_eq_true_eq] at digit
  obtain ⟨low, high⟩ : 0x30 ≤ c.toNat ∧ c.toNat ≤ 0x39 := digit
  have small : c.toNat - '0'.toNat < 10 := by
    simp only [Char.reduceToNat]
    omega
  refine ⟨small, Char.toNat_inj.mp ?_⟩
  rw [Nat.toNat_digitChar_of_lt_ten small]
  exact Nat.add_sub_cancel' low

/-- A natural number is written as a number without sign, fraction and exponent. -/
theorem natural_written (n : Nat) :
    ∃ number, natural? number = some n ∧ NumberText number (Nat.toDigits 10 n) := by
  let whole := (Nat.toDigits 10 n).map fun c => c.toNat - '0'.toNat
  have digits : ∀ c ∈ Nat.toDigits 10 n, c.isDigit = true :=
    fun c member => Nat.isDigit_of_mem_toDigits (by decide) (by decide) member
  have valid : Digits whole :=
    ⟨mt List.map_eq_nil_iff.mp Nat.toDigits_ne_nil,
      List.forall_mem_map.mpr fun c member => (digit_value (digits c member)).1⟩
  have written : digitsText whole = Nat.toDigits 10 n := by
    rw [digitsText, List.map_map]
    exact (List.map_congr_left fun c member => (digit_value (digits c member)).2).trans
      (List.map_id _)
  have normal : whole.head? = some 0 → whole.length = 1 := by
    intro zero
    rcases Nat.eq_zero_or_pos n with rfl | positive
    · rfl
    · obtain ⟨c, cs, front, nonzero⟩ := toDigits_head positive
      exact absurd zero (by simpa [whole, front] using nonzero)
  refine ⟨⟨false, whole, none, none⟩, ?_, ?_⟩
  · simp only [natural?, Option.isSome_none, Bool.or_self, Bool.false_eq_true, ↓reduceIte, whole,
      ofDigits_toDigits]
  · have number := NumberText.number false valid normal .none .none
    simpa only [Bool.false_eq_true, ↓reduceIte, List.nil_append, List.append_nil, written] using number

/-! ## Values -/

mutual

/-- The text of a value spells a tree that has this value. -/
theorem spelled_value : (v : Value) → ∃ tree, valueOf? tree = some v ∧ Spelled tree v.chars
  | .null => ⟨.null, rfl, .null⟩
  | .boolean b => ⟨.boolean b, rfl, .boolean b⟩
  | .natural n => by
    obtain ⟨number, value, written⟩ := natural_written n
    exact ⟨.number number, by rw [valueOf?, value]; rfl, .number written⟩
  | .string s => by
    obtain ⟨raw, written, text⟩ := stringText_key s
    exact ⟨.string raw, by simp [valueOf?, text_of text, Except.toOption], .string written⟩
  | .array items => by
    obtain ⟨rows, values, texts, each⟩ := spelled_items items
    refine ⟨.array (rows.map (·.1)) none, by rw [valueOf?, values]; rfl, ?_⟩
    rw [Value.chars, ← texts]
    cases rows with
    | nil => exact .emptyArray (List.forall_mem_nil _)
    | cons row rows => exact .array (List.cons_ne_nil row rows) each
  | .object members => by
    obtain ⟨rows, values, texts, keys, each⟩ := spelled_members members
    refine ⟨.object (rows.map (·.1)) none, by rw [valueOf?, values]; rfl, ?_⟩
    rw [Value.chars, ← texts]
    cases rows with
    | nil => exact .emptyObject (List.forall_mem_nil _)
    | cons row rows => exact .object (List.cons_ne_nil row rows) keys each

/-- So do the texts of the items of an array, each for itself. -/
theorem spelled_items : (items : List Value) → ∃ rows : List (Tree × List Char),
    itemsOf? (rows.map (·.1)) = some items ∧ rows.map (·.2) = Value.itemChars items ∧
      ∀ row ∈ rows, Spelled row.1 row.2
  | [] => ⟨[], rfl, rfl, List.forall_mem_nil _⟩
  | item :: rest => by
    obtain ⟨tree, value, spelled⟩ := spelled_value item
    obtain ⟨rows, values, texts, each⟩ := spelled_items rest
    refine ⟨(tree, item.chars) :: rows, ?_, ?_, List.forall_mem_cons.mpr ⟨spelled, each⟩⟩
    · rw [List.map_cons, itemsOf?, value, values]
      rfl
    · rw [List.map_cons, texts, Value.itemChars]

/-- And the texts of the members of an object, by their keys and values. -/
theorem spelled_members : (members : List (String × Value)) →
    ∃ rows : List ((RawString × Tree) × List Char × List Char),
      membersOf? (rows.map (·.1)) = some members ∧
      (rows.map fun row => row.2.1 ++ ':' :: row.2.2) = Value.memberChars members ∧
      (∀ row ∈ rows, KeyText row.1.1 row.2.1) ∧ ∀ row ∈ rows, Spelled row.1.2 row.2.2
  | [] => ⟨[], rfl, rfl, List.forall_mem_nil _, List.forall_mem_nil _⟩
  | (key, value) :: rest => by
    obtain ⟨raw, written, text⟩ := stringText_key key
    obtain ⟨tree, same, spelled⟩ := spelled_value value
    obtain ⟨rows, values, texts, keys, each⟩ := spelled_members rest
    have member : memberOf? (raw, tree) = some (key, value) := by
      simp [memberOf?, text_of text, same, Except.toOption]
    refine ⟨((raw, tree), stringText key, value.chars) :: rows, ?_, ?_,
      List.forall_mem_cons.mpr ⟨written, keys⟩, List.forall_mem_cons.mpr ⟨spelled, each⟩⟩
    · rw [List.map_cons, membersOf?, member, values]
      rfl
    · rw [List.map_cons, texts, Value.memberChars, Value.charsOfMember]

end

/-- Every value is read back from its text. -/
theorem read?_text (v : Value) : read? (utf8Bytes v.text) = some v := by
  obtain ⟨tree, value, spelled⟩ := spelled_value v
  have bytes : utf8Bytes v.text = encode v.chars := by
    show encode (String.ofList v.chars).toList = _
    rw [String.toList_ofList]
  rw [read?, bytes, read_spelled spelled]
  exact value

end PackageLoader.JsonText
