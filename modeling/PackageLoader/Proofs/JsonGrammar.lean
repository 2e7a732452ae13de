import Mathlib.Data.Bool.AllAny
import PackageLoader.Proofs.JsonText

/-! JSON text as anybody may write it: with blanks around its parts, with the characters of a string as
themselves or escaped, with numbers of every form. What is written by this grammar is read to the tree
that it spells, and nothing is left over. -/
namespace PackageLoader.JsonGrammar
open Json Text Utf8Text JsonText

/-! ## The grammar -/

/-- Blanks, tabs and line ends. -/
abbrev Space (cs : List Char) : Prop :=
  ∀ c ∈ cs, c ∈ [' ', '\n', '\t', '\r']

/-- The letters that may follow a backslash, with the characters that they stand for. -/
def escapes : List (Char × Char) :=
  [('"', '"'), ('\\', '\\'), ('/', '/'), ('b', '\x08'), ('f', '\x0c'), ('n', '\n'), ('r', '\r'),
    ('t', '\t')]

/-- Hexadecimal digits of both cases with their values. -/
def hexDigits : List (Char × Nat) :=
  (List.range 16).map (fun d => (d.digitChar, d)) ++
    (List.range 16).map fun d => (d.digitChar.toUpper, d)

/-- The pieces of a string as they are written between its quotes. -/
inductive PiecesText : List Piece → List Char → Prop where
  | nil : PiecesText [] []
  | self {c : Char} {pieces : List Piece} {rest : List Char} (quote : c ≠ '"') (backslash : c ≠ '\\')
      (printable : ¬ c.toNat < 0x20) (later : PiecesText pieces rest) :
      PiecesText ((String.utf8EncodeChar c).map .byte ++ pieces) (c :: rest)
  | letter {letter c : Char} {pieces : List Piece} {rest : List Char} (means : (letter, c) ∈ escapes)
      (later : PiecesText pieces rest) :
      PiecesText ((String.utf8EncodeChar c).map .byte ++ pieces) ('\\' :: letter :: rest)
  | unit {a b c d : Char × Nat} {pieces : List Piece} {rest : List Char}
      (digits : ∀ digit ∈ [a, b, c, d], digit ∈ hexDigits) (later : PiecesText pieces rest) :
      PiecesText (.unit (((a.2 * 16 + b.2) * 16 + c.2) * 16 + d.2) :: pieces)
        ('\\' :: 'u' :: a.1 :: b.1 :: c.1 :: d.1 :: rest)

/-- Decimal digits. -/
def digitsText (digits : List Nat) : List Char :=
  digits.map Nat.digitChar

/-- At least one decimal digit. -/
def Digits (digits : List Nat) : Prop :=
  digits ≠ [] ∧ ∀ d ∈ digits, d < 10

/-- A fraction behind its point, or none. -/
inductive FractionText : Option (List Nat) → List Char → Prop where
  | none : FractionText none []
  | some {digits : List Nat} (valid : Digits digits) :
      FractionText (some digits) ('.' :: digitsText digits)

/-- An exponent behind its mark, with or without a sign, or none. -/
inductive ExponentText : Option Int → List Char → Prop where
  | none : ExponentText none []
  | some {mark : Char} {sign : List Char} {digits : List Nat} (marks : mark ∈ ['e', 'E'])
      (signs : sign ∈ [[], ['+'], ['-']]) (valid : Digits digits) :
      ExponentText (some (if sign = ['-'] then -(ofDigits digits : Int) else ofDigits digits))
        (mark :: sign ++ digitsText digits)

/-- A number. No digit follows a zero in front. -/
inductive NumberText : Number → List Char → Prop where
  | number (negative : Bool) {whole : List Nat} {fraction? : Option (List Nat)} {exponent? : Option Int}
      {fraction exponent : List Char} (valid : Digits whole)
      (normal : whole.head? = some 0 → whole.length = 1) (behind : FractionText fraction? fraction)
      (scaled : ExponentText exponent? exponent) :
      NumberText ⟨negative, whole, fraction?, exponent?⟩
        ((if negative then ['-'] else []) ++ digitsText whole ++ fraction ++ exponent)

/-- A string between its quotes, with blanks around it. -/
inductive KeyText : RawString → List Char → Prop where
  | key {pieces : List Piece} {before inner behind : List Char} (left : Space before)
      (right : Space behind) (written : PiecesText pieces inner) :
      KeyText ⟨pieces, none⟩ (before ++ '"' :: inner ++ '"' :: behind)

/-- A value as it is written. Blanks may stand around every value. -/
inductive Spelled : Tree → List Char → Prop where
  | null : Spelled .null "null".toList
  | boolean (b : Bool) : Spelled (.boolean b) (if b then "true" else "false").toList
  | number {n : Number} {cs : List Char} (written : NumberText n cs) : Spelled (.number n) cs
  | string {s : RawString} {cs : List Char} (written : KeyText s cs) : Spelled (.string s) cs
  | emptyArray {space : List Char} (blanks : Space space) :
      Spelled (.array [] none) ('[' :: space ++ [']'])
  | array {rows : List (Tree × List Char)} (filled : rows ≠ [])
      (each : ∀ row ∈ rows, Spelled row.1 row.2) :
      Spelled (.array (rows.map (·.1)) none) ('[' :: withCommas (rows.map (·.2)) ++ [']'])
  | emptyObject {space : List Char} (blanks : Space space) :
      Spelled (.object [] none) ('\x7b' :: space ++ ['\x7d'])
  | object {rows : List ((RawString × Tree) × List Char × List Char)} (filled : rows ≠ [])
      (keys : ∀ row ∈ rows, KeyText row.1.1 row.2.1) (each : ∀ row ∈ rows, Spelled row.1.2 row.2.2) :
      Spelled (.object (rows.map (·.1)) none)
        ('\x7b' :: withCommas (rows.map fun row => row.2.1 ++ ':' :: row.2.2) ++ ['\x7d'])
  | padded {tree : Tree} {before cs behind : List Char} (left : Space before) (right : Space behind)
      (inner : Spelled tree cs) : Spelled tree (before ++ cs ++ behind)

/-! ## Blanks -/

theorem space_byte : ∀ c ∈ [' ', '\n', '\t', '\r'],
    ∃ b, String.utf8EncodeChar c = [b] ∧ isBlankByte b = true ∧ isDigit b = false ∧
      isCode '.' b = false ∧ isCode 'e' b = false ∧ isCode 'E' b = false := by
  have each : ∀ c ∈ [' ', '\n', '\t', '\r'], String.utf8EncodeChar c = [.ofNat c.toNat] ∧
      isBlankByte (.ofNat c.toNat) = true ∧ isDigit (.ofNat c.toNat) = false ∧
      isCode '.' (.ofNat c.toNat) = false ∧ isCode 'e' (.ofNat c.toNat) = false ∧
      isCode 'E' (.ofNat c.toNat) = false := List.all_iff_forall_prop.mp (by decide)
  exact fun c member => ⟨_, each c member⟩

/-- Blanks are passed over. -/
theorem run_space {space : List Char} (blanks : Space space) (state : Reading) (rest : Bytes) :
    run state (encode space ++ rest) = run state rest := by
  induction space with
  | nil => rfl
  | cons c space ih =>
    obtain ⟨b, encoded, blank, -⟩ := space_byte c (blanks c (List.mem_cons_self ..))
    rw [encode_cons, encoded, List.append_assoc, List.singleton_append, run, tokens, if_pos blank]
    exact ih fun d member => blanks d (List.mem_cons_of_mem _ member)

/-- Blanks end a number. -/
theorem ends_space {space : List Char} (blanks : Space space) {rest : Bytes} (ends : Ends rest) :
    Ends (encode space ++ rest) := by
  cases space with
  | nil => exact ends
  | cons c space =>
    obtain ⟨b, encoded, -, plain⟩ := space_byte c (blanks c (List.mem_cons_self ..))
    rw [encode_cons, encoded]
    exact ends_cons _ plain

/-! ## Strings -/

/-- An escape with a letter is read as the byte of its character. -/
theorem readString_letter {letter c : Char} (means : (letter, c) ∈ escapes) (rest : Bytes) :
    readString (encode ['\\', letter] ++ rest) =
      ((String.utf8EncodeChar c).map .byte).foldr withPiece (readString rest) := by
  have bytes : ∀ pair ∈ escapes, encode ['\\', pair.1] = [0x5C, .ofNat pair.1.toNat] ∧
      String.utf8EncodeChar pair.2 = [.ofNat pair.2.toNat] ∧
      isCode 'u' (.ofNat pair.1.toNat) = false ∧
      simpleEscape? (.ofNat pair.1.toNat) = some (.ofNat pair.2.toNat) := by decide
  obtain ⟨written, encoded, plain, stands⟩ := bytes _ means
  rw [written, encoded]
  exact readString_backslash _ rest plain stands

/-- An escape by number is read as its code unit. -/
theorem readString_number {a b c d : Char × Nat} (digits : ∀ digit ∈ [a, b, c, d], digit ∈ hexDigits)
    (rest : Bytes) : readString (encode ['\\', 'u', a.1, b.1, c.1, d.1] ++ rest) =
      withPiece (.unit (((a.2 * 16 + b.2) * 16 + c.2) * 16 + d.2)) (readString rest) := by
  have bytes : ∀ digit ∈ hexDigits, String.utf8EncodeChar digit.1 = [.ofNat digit.1.toNat] ∧
      hexDigit? (.ofNat digit.1.toNat) = some digit.2 := by decide
  have digit {x : Char × Nat} (member : x ∈ [a, b, c, d]) := bytes x (digits x member)
  obtain ⟨aByte, aValue⟩ := digit (x := a) (by simp)
  obtain ⟨bByte, bValue⟩ := digit (x := b) (by simp)
  obtain ⟨cByte, cValue⟩ := digit (x := c) (by simp)
  obtain ⟨dByte, dValue⟩ := digit (x := d) (by simp)
  have written : encode ['\\', 'u', a.1, b.1, c.1, d.1] ++ rest = 0x5C :: 0x75 ::
      .ofNat a.1.toNat :: .ofNat b.1.toNat :: .ofNat c.1.toNat :: .ofNat d.1.toNat :: rest := by
    simp only [encode_cons, encode_nil, aByte, bByte, cByte, dByte]
    rfl
  have unit : codeUnit? (.ofNat a.1.toNat) (.ofNat b.1.toNat) (.ofNat c.1.toNat)
      (.ofNat d.1.toNat) = some (((a.2 * 16 + b.2) * 16 + c.2) * 16 + d.2) := by
    simp only [codeUnit?, aValue, bValue, cValue, dValue, Option.bind_eq_bind, Option.bind_some,
      Option.pure_def]
  have quote : isCode '"' 0x5C = false := by decide
  have backslash : isCode '\\' 0x5C = true := by decide
  have mark : isCode 'u' 0x75 = true := by decide
  rw [written, readString.eq_def]
  simp only [quote, backslash, mark, unit, Bool.false_eq_true, ↓reduceIte]

/-- A string is read up to its closing quote. -/
theorem readString_pieces {pieces : List Piece} {cs : List Char} (written : PiecesText pieces cs)
    (rest : Bytes) : readString (encode cs ++ 0x22 :: rest) = (⟨pieces, none⟩, rest) := by
  have pass (front later : List Piece) : front.foldr withPiece (⟨later, none⟩, rest) =
      (⟨front ++ later, none⟩, rest) := foldr_withPiece front _
  induction written with
  | nil =>
    have quote : isCode '"' 0x22 = true := by decide
    rw [encode_nil, List.nil_append, readString.eq_def]
    simp only [quote, ↓reduceIte]
  | self quote backslash printable later ih =>
    rw [encode_cons, List.append_assoc, readString_self quote backslash printable, ih, pass]
  | @letter letter c pieces cs means later ih =>
    have split : encode ('\\' :: letter :: cs) = encode ['\\', letter] ++ encode cs :=
      encode_append ['\\', letter] cs
    rw [split, List.append_assoc, readString_letter means, ih, pass]
  | @unit a b c d pieces cs digits later ih =>
    have split : encode ('\\' :: 'u' :: a.1 :: b.1 :: c.1 :: d.1 :: cs) =
      encode ['\\', 'u', a.1, b.1, c.1, d.1] ++ encode cs := encode_append ['\\', 'u', a.1, b.1, c.1, d.1] cs
    rw [split, List.append_assoc, readString_number digits, ih]
    rfl

/-! ### What strings mean -/

/-- Pieces that mean characters: each of them by its bytes, by its code unit or by a pair of units. -/
inductive Means : List Piece → List Char → Prop where
  | nil : Means [] []
  | bytes {pieces : List Piece} {cs : List Char} (c : Char) (later : Means pieces cs) :
      Means ((String.utf8EncodeChar c).map .byte ++ pieces) (c :: cs)
  | unit {pieces : List Piece} {cs : List Char} (c : Char) (later : Means pieces cs) :
      Means (.unit c.toNat :: pieces) (c :: cs)
  | pair {pieces : List Piece} {cs : List Char} {high low : Nat}
      (leading : 0xD800 ≤ high ∧ high ≤ 0xDBFF) (trailing : 0xDC00 ≤ low ∧ low ≤ 0xDFFF)
      (later : Means pieces cs) :
      Means (.unit high :: .unit low :: pieces)
        (Char.ofNat (0x10000 + (high - 0xD800) * 0x400 + (low - 0xDC00)) :: cs)

/-- A string that is read to its end and means a text. -/
structure TextOf (raw : RawString) (s : String) : Prop where
  closed : raw.fault? = none
  means : Means raw.pieces s.toList

theorem bytesOf_means {pieces : List Piece} {cs : List Char} (means : Means pieces cs) :
    RawString.bytesOf none pieces = .ok (encode cs) := by
  induction means with
  | nil => rfl
  | bytes c later ih => rw [bytesOf_bytes, ih]; rfl
  | unit c later ih =>
    have valid : c.toNat < 0xD800 ∨ 0xDFFF < c.toNat ∧ c.toNat < 0x110000 := c.valid
    have trailing : RawString.isTrailing c.toNat = false := by
      simp only [RawString.isTrailing, Bool.and_eq_false_iff, decide_eq_false_iff_not]
      omega
    have leading : RawString.isLeading c.toNat = false := by
      simp only [RawString.isLeading, Bool.and_eq_false_iff, decide_eq_false_iff_not]
      omega
    rw [RawString.bytesOf.eq_def]
    simp only [trailing, leading, Bool.false_eq_true, ↓reduceIte, Char.ofNat_toNat, ih]
    rfl
  | @pair pieces cs high low leading trailing later ih =>
    have first : RawString.isTrailing high = false ∧ RawString.isLeading high = true := by
      simp only [RawString.isTrailing, RawString.isLeading, Bool.and_eq_false_iff, Bool.and_eq_true,
        decide_eq_false_iff_not, decide_eq_true_eq]
      omega
    have second : RawString.isTrailing low = true := by
      simpa only [RawString.isTrailing, Bool.and_eq_true, decide_eq_true_eq] using trailing
    rw [RawString.bytesOf.eq_def]
    simp only [first, second, Bool.false_eq_true, ↓reduceIte, ih]
    rfl

/-- A string is read to the text that it means. -/
theorem text_of {raw : RawString} {s : String} (text : TextOf raw s) : raw.text = .ok s := by
  obtain ⟨pieces, fault?⟩ := raw
  obtain ⟨rfl, means⟩ := text
  simp only [RawString.text, bytesOf_means means, bind, Except.bind]
  rw [decodeUtf8?_encode, String.ofList_toList]

/-- A code unit outside the surrogates is a character. -/
theorem unit_char {n : Nat} (unit : n < 0x10000) (leading : RawString.isLeading n = false)
    (trailing : RawString.isTrailing n = false) : (Char.ofNat n).toNat = n := by
  simp only [RawString.isLeading, RawString.isTrailing, Bool.and_eq_false_iff,
    decide_eq_false_iff_not] at leading trailing
  have valid : n.isValidChar := by
    rw [Nat.isValidChar]
    omega
  rw [Char.ofNat, dif_pos valid]
  rfl

/-- Pieces behind a code unit are written behind it. -/
theorem piecesText_unit {n : Nat} {pieces : List Piece} {cs : List Char}
    (written : PiecesText (.unit n :: pieces) cs) : n < 0x10000 ∧ ∃ rest, PiecesText pieces rest := by
  have bytes {c : Char} {later : List Piece}
      (same : (String.utf8EncodeChar c).map .byte ++ later = .unit n :: pieces) : False := by
    obtain ⟨b, tail, front⟩ := List.exists_cons_of_ne_nil (String.utf8EncodeChar_ne_nil (c := c))
    rw [front] at same
    cases same
  generalize all : Piece.unit n :: pieces = given at written
  cases written with
  | nil => cases all
  | self => exact (bytes all.symm).elim
  | letter => exact (bytes all.symm).elim
  | unit digits later =>
    cases all
    have values : ∀ digit ∈ hexDigits, digit.2 < 16 := by decide
    simp only [List.forall_mem_cons] at digits
    obtain ⟨a, b, c, d, -⟩ := digits
    have := values _ a
    have := values _ b
    have := values _ c
    have := values _ d
    exact ⟨by omega, _, later⟩

/-- What stands behind a character can be read if the two can be read together. -/
theorem bytesOf_behind {c : Char} {pieces : List Piece} {bytes : Bytes}
    (read : (RawString.bytesOf none pieces).map (String.utf8EncodeChar c ++ ·) = .ok bytes) :
    ∃ rest, RawString.bytesOf none pieces = .ok rest := by
  cases inner : RawString.bytesOf none pieces with
  | error fault =>
    rw [inner] at read
    cases read
  | ok rest => exact ⟨rest, rfl⟩

/-- A code unit that can be read is a character by itself, or the next one makes a pair with it. -/
theorem bytesOf_unit {n : Nat} {later : List Piece} {bytes : Bytes}
    (read : RawString.bytesOf none (.unit n :: later) = .ok bytes) :
    (RawString.isLeading n = false ∧ RawString.isTrailing n = false ∧
      ∃ rest, RawString.bytesOf none later = .ok rest) ∨
    ∃ m behind rest, later = .unit m :: behind ∧ RawString.isLeading n = true ∧
      RawString.isTrailing m = true ∧ RawString.bytesOf none behind = .ok rest := by
  rw [RawString.bytesOf.eq_def] at read
  cases trailing : RawString.isTrailing n with
  | true =>
    simp only [trailing, ↓reduceIte] at read
    cases read
  | false =>
    simp only [trailing, Bool.false_eq_true, ↓reduceIte] at read
    cases leading : RawString.isLeading n with
    | false =>
      simp only [leading, Bool.false_eq_true, ↓reduceIte] at read
      exact Or.inl ⟨rfl, rfl, bytesOf_behind read⟩
    | true =>
      simp only [leading, ↓reduceIte] at read
      cases later with
      | nil => cases read
      | cons piece behind =>
        cases piece with
        | byte b => cases read
        | unit m =>
          cases second : RawString.isTrailing m with
          | false =>
            simp only [second, Bool.false_eq_true, ↓reduceIte] at read
            cases read
          | true =>
            simp only [second, ↓reduceIte] at read
            obtain ⟨rest, inner⟩ := bytesOf_behind read
            exact Or.inr ⟨m, behind, rest, rfl, rfl, second, inner⟩

/-- A code unit that is a character by itself means it. -/
theorem means_single {n : Nat} {later : List Piece} {meaning : List Char} (unit : n < 0x10000)
    (leading : RawString.isLeading n = false) (trailing : RawString.isTrailing n = false)
    (means : Means later meaning) : Means (.unit n :: later) (Char.ofNat n :: meaning) := by
  have single := Means.unit (Char.ofNat n) means
  rwa [unit_char unit leading trailing] at single

/-- Pieces whose bytes can be read mean characters. -/
theorem means_of_bytesOf {pieces : List Piece} {cs : List Char} (written : PiecesText pieces cs)
    {bytes : Bytes} (read : RawString.bytesOf none pieces = .ok bytes) :
    ∃ meaning, Means pieces meaning := by
  -- A pair takes up two pieces at once, so the induction is on their number.
  induction size : pieces.length using Nat.strongRecOn generalizing pieces cs bytes with
  | ind length ih =>
    have passed {c : Char} {later : List Piece} {rest : List Char} (behind : PiecesText later rest)
        (split : pieces = (String.utf8EncodeChar c).map .byte ++ later) :
        ∃ meaning, Means pieces meaning := by
      have filled := List.length_pos_iff.mpr (String.utf8EncodeChar_ne_nil (c := c))
      have shorter : later.length < length := by
        rw [← size, split, List.length_append, List.length_map]
        omega
      rw [split, bytesOf_bytes] at read
      obtain ⟨more, inner⟩ := bytesOf_behind read
      obtain ⟨meaning, means⟩ := ih _ shorter behind inner rfl
      exact ⟨c :: meaning, split ▸ .bytes c means⟩
    cases written with
    | nil => exact ⟨[], .nil⟩
    | self quote backslash printable later => exact passed later rfl
    | letter means later => exact passed later rfl
    | unit digits behind =>
      have small := (piecesText_unit (.unit digits behind)).1
      rw [List.length_cons] at size
      rcases bytesOf_unit read with
        ⟨leading, trailing, rest, inner⟩ | ⟨m, after, rest, rfl, leading, trailing, inner⟩
      · obtain ⟨meaning, means⟩ := ih _ (by omega) behind inner rfl
        exact ⟨_, means_single small leading trailing means⟩
      · obtain ⟨-, _, behind⟩ := piecesText_unit behind
        rw [List.length_cons] at size
        obtain ⟨meaning, means⟩ := ih _ (by omega) behind inner rfl
        simp only [RawString.isLeading, RawString.isTrailing, Bool.and_eq_true,
          decide_eq_true_eq] at leading trailing
        exact ⟨_, .pair leading trailing means⟩

/-- A string that can be read means the text that it is read to. -/
theorem textOf_of_text {raw : RawString} {cs : List Char} {s : String} (written : KeyText raw cs)
    (read : raw.text = .ok s) : TextOf raw s := by
  cases written with
  | @key pieces before inner behind left right written =>
    cases bytes : RawString.bytesOf none pieces with
    | error fault =>
      simp only [RawString.text, bytes] at read
      cases read
    | ok all =>
      obtain ⟨meaning, means⟩ := means_of_bytesOf written bytes
      have text : TextOf ⟨pieces, none⟩ (.ofList meaning) := ⟨rfl, by simpa using means⟩
      rw [text_of text] at read
      cases read
      exact text

/-- A text is the only one that a string means. -/
theorem textOf_unique {raw : RawString} {s t : String} (first : TextOf raw s) (second : TextOf raw t) :
    s = t := by
  have same := (text_of first).symm.trans (text_of second)
  cases same
  rfl

/-- A string whose characters all stand for themselves. -/
def plainString (s : String) : RawString :=
  ⟨(utf8Bytes s).map .byte, none⟩

theorem textOf_plainString (s : String) : TextOf (plainString s) s := by
  have means (cs : List Char) : Means ((encode cs).map .byte) cs := by
    induction cs with
    | nil => exact .nil
    | cons c cs ih =>
      rw [encode_cons, List.map_append]
      exact .bytes c ih
  exact ⟨rfl, means s.toList⟩

theorem textOf_plainString_iff {s t : String} : TextOf (plainString s) t ↔ s = t :=
  ⟨textOf_unique (textOf_plainString s), fun same => same ▸ textOf_plainString s⟩

/-- A text without quotes, backslashes and controls is spelled by itself. -/
theorem plainString_spelled {s : String}
    (plain : s.toList.all fun c => c ≠ '"' ∧ c ≠ '\\' ∧ ¬ c.toNat < 0x20) :
    KeyText (plainString s) ('"' :: s.toList ++ ['"']) := by
  have nothing : Space [] := List.forall_mem_nil _
  have pieces : ∀ cs : List Char, (∀ c ∈ cs, c ≠ '"' ∧ c ≠ '\\' ∧ ¬ c.toNat < 0x20) →
      PiecesText ((encode cs).map .byte) cs := by
    intro cs
    induction cs with
    | nil => exact fun _ => .nil
    | cons c cs ih =>
      intro plain
      obtain ⟨⟨quote, backslash, printable⟩, others⟩ := List.forall_mem_cons.mp plain
      rw [encode_cons, List.map_append]
      exact .self quote backslash printable (ih others)
  exact .key nothing nothing (pieces s.toList (List.all_iff_forall_prop.mp plain))

/-! ## Numbers -/

theorem digit_byte : ∀ d < 10, String.utf8EncodeChar d.digitChar = [.ofNat (0x30 + d)] ∧
    isDigit (.ofNat (0x30 + d)) = true ∧ (UInt8.ofNat (0x30 + d)).toNat - '0'.toNat = d := by
  decide

/-- No digit follows. -/
def Stops (rest : Bytes) : Prop :=
  ∀ b, rest.head? = some b → isDigit b = false

theorem stops_of_ends {rest : Bytes} (ends : Ends rest) : Stops rest :=
  fun b first => (ends b first).1

theorem takeDigits_digits {digits : List Nat} (valid : ∀ d ∈ digits, d < 10) {rest : Bytes}
    (stops : Stops rest) : takeDigits (encode (digitsText digits) ++ rest) = (digits, rest) := by
  induction digits with
  | nil =>
    cases rest with
    | nil => rfl
    | cons b rest => simp [digitsText, takeDigits, stops b rfl]
  | cons d digits ih =>
    obtain ⟨own, others⟩ := List.forall_mem_cons.mp valid
    obtain ⟨encoded, digit, value⟩ := digit_byte d own
    have later := ih others
    simp only [takeDigits, Prod.mk.injEq] at later ⊢
    simp only [digitsText, List.map_cons, encode_cons, encoded, List.cons_append, List.nil_append,
      List.takeWhile_cons, digit, ↓reduceIte, value, List.dropWhile_cons]
    exact ⟨congrArg _ later.1, later.2⟩

theorem takeSomeDigits_digits {digits : List Nat} (valid : Digits digits) {rest : Bytes}
    (stops : Stops rest) :
    takeSomeDigits (encode (digitsText digits) ++ rest) = .ok (digits, rest) := by
  rw [takeSomeDigits, takeDigits_digits valid.2 stops]
  split
  · rename_i none
    exact absurd (congrArg Prod.fst none) valid.1
  · rfl

/-- Digits in front of a text start it with one of them. -/
theorem digits_front {digits : List Nat} (valid : Digits digits) (rest : Bytes) :
    ∃ b tail, encode (digitsText digits) ++ rest = b :: tail ∧ isDigit b = true := by
  obtain ⟨d, others, rfl⟩ := List.exists_cons_of_ne_nil valid.1
  obtain ⟨encoded, digit, -⟩ := digit_byte d (valid.2 d (List.mem_cons_self ..))
  refine ⟨_, encode (digitsText others) ++ rest, ?_, digit⟩
  rw [digitsText, List.map_cons, encode_cons, encoded]
  rfl

/-- Where a digit comes first, no mark does. -/
theorem after?_digit {b : UInt8} (digit : isDigit b = true) {marks : List Char}
    (outside : marks.all fun mark => mark.toNat < 0x30 ∨ 0x39 < mark.toNat) (tail : Bytes) :
    after? marks (b :: tail) = none := by
  refine after?_none fun first same mark member => ?_
  cases same
  have range := List.all_iff_forall_prop.mp outside mark member
  simp only [Json.isDigit, isCode, Bool.and_eq_true, decide_eq_true_eq, decide_eq_false_iff_not,
    Char.reduceToNat] at digit ⊢
  omega

theorem takeFraction_text {fraction? : Option (List Nat)} {cs : List Char}
    (written : FractionText fraction? cs) {rest : Bytes} (stops : Stops rest)
    (pointless : ∀ b, rest.head? = some b → isCode '.' b = false) :
    takeFraction (encode cs ++ rest) = .ok (fraction?, rest) := by
  cases written with
  | none =>
    have none : after? ['.'] rest = none := after?_none fun b first => by simp [pointless b first]
    rw [encode_nil, List.nil_append, takeFraction, none]
  | @some digits valid =>
    have found : after? ['.'] (encode ('.' :: digitsText digits) ++ rest) =
      some (encode (digitsText digits) ++ rest) := rfl
    rw [takeFraction, found]
    simp only [takeSomeDigits_digits valid stops, bind, Except.bind, pure, Except.pure]

/-- A sign is passed over and told from none. -/
theorem sign_text {sign : List Char} (signs : sign ∈ [[], ['+'], ['-']]) {digits : List Nat}
    (valid : Digits digits) (rest : Bytes) {text : Bytes}
    (spelled : text = encode sign ++ (encode (digitsText digits) ++ rest)) :
    (after? ['+', '-'] text).getD text = encode (digitsText digits) ++ rest ∧
      text.head?.any (isCode '-') = decide (sign = ['-']) := by
  subst spelled
  simp only [List.mem_cons, List.not_mem_nil, or_false] at signs
  rcases signs with rfl | rfl | rfl
  · obtain ⟨b, tail, front, digit⟩ := digits_front valid rest
    have unsigned : isCode '-' b = false := by
      simp only [Json.isDigit, isCode, Bool.and_eq_true, decide_eq_true_eq,
        decide_eq_false_iff_not, Char.reduceToNat] at digit ⊢
      omega
    rw [encode_nil, List.nil_append, front, after?_digit digit (by decide)]
    exact ⟨rfl, by simpa using unsigned⟩
  · exact ⟨rfl, rfl⟩
  · exact ⟨rfl, rfl⟩

theorem takeExponent_text {exponent? : Option Int} {cs : List Char}
    (written : ExponentText exponent? cs) {rest : Bytes} (ends : Ends rest) :
    takeExponent (encode cs ++ rest) = .ok (exponent?, rest) := by
  cases written with
  | none =>
    have none : after? ['e', 'E'] rest = none := after?_none fun b first => by
      simp [(ends b first).2.2]
    rw [encode_nil, List.nil_append, takeExponent, none]
  | @some mark sign digits marks signs valid =>
    have taken := takeSomeDigits_digits valid (stops_of_ends ends)
    have found : after? ['e', 'E'] (encode (mark :: sign ++ digitsText digits) ++ rest) =
        some (encode sign ++ (encode (digitsText digits) ++ rest)) := by
      rw [List.cons_append, encode_cons, encode_append]
      simp only [List.mem_cons, List.not_mem_nil, or_false] at marks
      rcases marks with rfl | rfl <;> simp only [List.append_assoc] <;> rfl
    obtain ⟨behind, minus⟩ := sign_text signs valid rest rfl
    rw [takeExponent, found]
    simp only [behind, minus, taken, decide_eq_true_eq, bind, Except.bind, pure, Except.pure]

/-- Neither an exponent nor what follows it goes on with a fraction. -/
theorem exponent_front {exponent? : Option Int} {cs : List Char}
    (written : ExponentText exponent? cs) {rest : Bytes} (ends : Ends rest) :
    ∀ b, (encode cs ++ rest).head? = some b → isDigit b = false ∧ isCode '.' b = false := by
  cases written with
  | none => exact fun b first => ⟨(ends b first).1, (ends b first).2.1⟩
  | @some mark sign digits marks signs valid =>
    intro b first
    simp only [List.mem_cons, List.not_mem_nil, or_false] at marks
    rcases marks with rfl | rfl
    · cases first
      decide
    · cases first
      decide

/-- Neither a fraction nor what follows it goes on with digits. -/
theorem fraction_stops {fraction? : Option (List Nat)} {cs : List Char}
    (written : FractionText fraction? cs) {rest : Bytes} (stops : Stops rest) :
    Stops (encode cs ++ rest) := by
  cases written with
  | none => exact stops
  | some valid =>
    intro b first
    cases first
    decide

/-- A number is read back from any of its forms. -/
theorem takeNumber_written {n : Number} {cs : List Char} (written : NumberText n cs) {rest : Bytes}
    (ends : Ends rest) : takeNumber (encode cs ++ rest) = .ok (n, rest) := by
  obtain ⟨negative, valid, normal, behind, scaled⟩ := written
  rename_i whole fraction? exponent? fraction exponent
  have front := exponent_front scaled ends
  have stops : Stops (encode exponent ++ rest) := fun b first => (front b first).1
  have digits := takeSomeDigits_digits valid (fraction_stops behind stops)
  have fractions := takeFraction_text behind stops fun b first => (front b first).2
  have exponents := takeExponent_text scaled ends
  obtain ⟨b, tail, first, digit⟩ :=
    digits_front valid (encode fraction ++ (encode exponent ++ rest))
  have unsigned := @after?_digit b digit ['-'] (by decide) tail
  have sign : after? ['-'] (encode (if negative then ['-'] else []) ++ b :: tail) =
      if negative then some (b :: tail) else none := by
    cases negative with
    | true => rfl
    | false => exact unsigned
  have size : ¬ (decide (whole.head? = some 0) && decide (whole.length ≠ 1)) = true := by
    simpa using normal
  rw [first] at digits
  rw [encode_append, encode_append, encode_append, List.append_assoc, List.append_assoc,
    List.append_assoc, first, takeNumber, sign]
  cases negative with
  | true =>
    simp only [↓reduceIte, Option.getD_some, digits, bind, Except.bind, size, fractions, exponents,
      pure, Except.pure, Option.isSome_some, Bool.false_eq_true]
  | false =>
    simp only [Bool.false_eq_true, ↓reduceIte, Option.getD_none, encode_nil, List.nil_append, digits, bind,
      Except.bind, size, fractions, exponents, pure, Except.pure, Option.isSome_none]

/-- A number starts with its sign or with a digit. -/
theorem number_front {n : Number} {cs : List Char} (written : NumberText n cs) (rest : Bytes) :
    ∃ b tail, encode cs ++ rest = b :: tail ∧ isBlankByte b = false ∧
      readToken b tail = readNumber (b :: tail) := by
  obtain ⟨negative, valid, -, -, -⟩ := written
  rename_i whole _ _ fraction exponent
  cases negative with
  | true =>
    refine ⟨0x2D, encode (digitsText whole ++ fraction ++ exponent) ++ rest, ?_, by decide, rfl⟩
    simp only [↓reduceIte, List.append_assoc, encode_append]
    rfl
  | false =>
    obtain ⟨b, tail, first, digit⟩ := digits_front valid (encode fraction ++ (encode exponent ++ rest))
    obtain ⟨filled, token⟩ := readToken_digit digit tail
    refine ⟨b, tail, ?_, filled, token⟩
    rw [← first]
    simp only [Bool.false_eq_true, ↓reduceIte, List.nil_append, encode_append, List.append_assoc]

/-! ## Values -/

/-- A text that is read to a tree wherever a value is wanted. -/
def ReadsTo (tree : Tree) (cs : List Char) : Prop :=
  ∀ frames rest, Wants frames → Ends rest →
    run (.inside frames) (encode cs ++ rest) = run (place tree frames) rest

theorem readsTo_number {n : Number} {cs : List Char} (written : NumberText n cs) :
    ReadsTo (.number n) cs := by
  intro frames rest wants ends
  have taken := takeNumber_written written ends
  obtain ⟨b, tail, front, filled, token⟩ := number_front written rest
  rw [front] at taken ⊢
  refine run_scalar wants filled (token.trans ?_) rfl
  rw [readNumber, taken]
  rfl

/-- A string is one token. -/
theorem run_key {raw : RawString} {cs : List Char} (written : KeyText raw cs) (frames : List Frame)
    (rest : Bytes) :
    run (.inside frames) (encode cs ++ rest) = run (step frames (.string raw)) rest := by
  obtain ⟨left, right, inner⟩ := written
  rename_i pieces before cs behind
  have token (rest : Bytes) :
      readToken 0x22 rest = (.string (readString rest).1, (readString rest).2) := rfl
  have bytes : encode (before ++ '"' :: cs ++ '"' :: behind) ++ rest =
      encode before ++ 0x22 :: (encode cs ++ 0x22 :: (encode behind ++ rest)) := by
    simp only [encode_append, List.append_assoc]
    rfl
  rw [bytes, run_space left, run_token frames (by decide), token, readString_pieces inner,
    run_space right]

theorem readsTo_string {raw : RawString} {cs : List Char} (written : KeyText raw cs) :
    ReadsTo (.string raw) cs := by
  intro frames rest wants _
  have closed : raw.fault? = none := by
    cases written
    rfl
  rw [run_key written, step_wants wants (by simp), startValue, placeScalar]
  simp only [Tree.fault?, closed]

theorem readsTo_padded {tree : Tree} {before cs behind : List Char} (left : Space before)
    (right : Space behind) (inner : ReadsTo tree cs) : ReadsTo tree (before ++ cs ++ behind) := by
  intro frames rest wants ends
  rw [encode_append, encode_append, List.append_assoc, List.append_assoc, run_space left,
    inner frames _ wants (ends_space right ends), run_space right]

/-- Items with commas between them are read up to the end of their array. -/
theorem run_rows {rows : List (Tree × List Char)} (filled : rows ≠ [])
    (each : ∀ row ∈ rows, ReadsTo row.1 row.2) (done : List Tree) {stage : ArrayStage}
    (waits : stage = .first ∨ stage = .item) (outer : List Frame) (rest : Bytes) :
    run (.inside (.array done stage :: outer))
      (encode (withCommas (rows.map (·.2)) ++ [']']) ++ rest) =
        run (place (.array (done.reverse ++ rows.map (·.1)) none) outer) rest := by
  induction rows generalizing done stage with
  | nil => exact absurd rfl filled
  | cons row rows ih =>
    obtain ⟨own, others⟩ := List.forall_mem_cons.mp each
    have wants : Wants (.array done stage :: outer) := by
      rcases waits with rfl | rfl <;> trivial
    rw [List.map_cons, withCommas_cons, List.append_assoc, encode_append, List.append_assoc]
    rcases rows with _ | ⟨second, rows⟩
    · show run _ (encode row.2 ++ 0x5D :: rest) = _
      rw [own _ _ wants (ends_cons rest (by decide)), place,
        run_mark _ .closeArray rfl, step, List.reverse_cons]
      rfl
    · show run _ (encode row.2 ++ 0x2C ::
        (encode (withCommas ((second :: rows).map (·.2)) ++ [']']) ++ rest)) = _
      rw [own _ _ wants (ends_cons _ (by decide)), place, run_mark _ .comma rfl, step,
        ih (by simp) others (row.1 :: done) (Or.inr rfl), List.reverse_cons, List.append_assoc,
        List.singleton_append]
      rfl

/-- A key, a colon and a value are one member. -/
theorem run_pair {raw : RawString} {key cs : List Char} {tree : Tree} (written : KeyText raw key)
    (value : ReadsTo tree cs) (done : List (RawString × Tree)) {stage : ObjectStage}
    (waits : stage = .first ∨ stage = .key) (outer : List Frame) {rest : Bytes} (ends : Ends rest) :
    run (.inside (.object done stage :: outer)) (encode (key ++ ':' :: cs) ++ rest) =
      run (.inside (.object ((raw, tree) :: done) .next :: outer)) rest := by
  have closed : raw.fault? = none := by
    cases written
    rfl
  have taken : step (.object done stage :: outer) (.string raw) =
      .inside (.object done (.colon raw) :: outer) := by
    rcases waits with rfl | rfl <;> simp only [step, closed]
  rw [encode_append, List.append_assoc, run_key written, taken]
  show run _ (0x3A :: (encode cs ++ rest)) = _
  rw [run_mark _ .colon rfl, step,
    value (.object done (.value raw) :: outer) rest trivial ends, place]

/-- Members with commas between them are read up to the end of their object. -/
theorem run_pairs {rows : List ((RawString × Tree) × List Char × List Char)} (filled : rows ≠ [])
    (keys : ∀ row ∈ rows, KeyText row.1.1 row.2.1) (each : ∀ row ∈ rows, ReadsTo row.1.2 row.2.2)
    (done : List (RawString × Tree)) {stage : ObjectStage} (waits : stage = .first ∨ stage = .key)
    (outer : List Frame) (rest : Bytes) :
    run (.inside (.object done stage :: outer))
      (encode (withCommas (rows.map fun row => row.2.1 ++ ':' :: row.2.2) ++ ['\x7d']) ++ rest) =
        run (place (.object (done.reverse ++ rows.map (·.1)) none) outer) rest := by
  induction rows generalizing done stage with
  | nil => exact absurd rfl filled
  | cons row rows ih =>
    obtain ⟨key, otherKeys⟩ := List.forall_mem_cons.mp keys
    obtain ⟨own, others⟩ := List.forall_mem_cons.mp each
    rw [List.map_cons, withCommas_cons, List.append_assoc, encode_append, List.append_assoc]
    rcases rows with _ | ⟨second, rows⟩
    · show run _ (encode (row.2.1 ++ ':' :: row.2.2) ++ 0x7D :: rest) = _
      rw [run_pair key own _ waits _ (ends_cons rest (by decide)),
        run_mark _ .closeObject rfl, step, List.reverse_cons]
      rfl
    · show run _ (encode (row.2.1 ++ ':' :: row.2.2) ++ 0x2C ::
        (encode (withCommas ((second :: rows).map fun row => row.2.1 ++ ':' :: row.2.2) ++ ['\x7d']) ++
          rest)) = _
      rw [run_pair key own _ waits _ (ends_cons _ (by decide)), run_mark _ .comma rfl, step,
        ih (by simp) otherKeys others ((row.1.1, row.1.2) :: done) (Or.inr rfl), List.reverse_cons,
        List.append_assoc, List.singleton_append]
      rfl

/-- Every value is read to the tree that it spells. -/
theorem readsTo_spelled {tree : Tree} {cs : List Char} (spelled : Spelled tree cs) :
    ReadsTo tree cs := by
  induction spelled with
  | null => exact fun frames rest wants _ => run_scalar wants (by decide) rfl rfl
  | boolean b =>
    cases b <;> exact fun frames rest wants _ => run_scalar wants (by decide) rfl rfl
  | number written => exact readsTo_number written
  | string written => exact readsTo_string written
  | @emptyArray space blanks =>
    intro frames rest wants _
    show run _ (0x5B :: (encode (space ++ [']']) ++ rest)) = _
    rw [run_mark frames .openArray rfl, step_wants wants (by simp), encode_append,
      List.append_assoc]
    show run (.inside _) (encode space ++ 0x5D :: rest) = _
    rw [run_space blanks, run_mark _ .closeArray rfl]
    rfl
  | @array rows filled each ih =>
    intro frames rest wants _
    show run _ (0x5B :: (encode _ ++ rest)) = _
    rw [run_mark frames .openArray rfl, step_wants wants (by simp)]
    exact run_rows filled ih [] (Or.inl rfl) frames rest
  | @emptyObject space blanks =>
    intro frames rest wants _
    show run _ (0x7B :: (encode (space ++ ['\x7d']) ++ rest)) = _
    rw [run_mark frames .openObject rfl, step_wants wants (by simp), encode_append,
      List.append_assoc]
    show run (.inside _) (encode space ++ 0x7D :: rest) = _
    rw [run_space blanks, run_mark _ .closeObject rfl]
    rfl
  | @object rows filled keys each ih =>
    intro frames rest wants _
    show run _ (0x7B :: (encode _ ++ rest)) = _
    rw [run_mark frames .openObject rfl, step_wants wants (by simp)]
    exact run_pairs filled keys ih [] (Or.inl rfl) frames rest
  | padded left right inner ih => exact readsTo_padded left right ih

/-- A document is read to the tree that its text spells. -/
theorem read_spelled {tree : Tree} {cs : List Char} (spelled : Spelled tree cs) :
    Document.read (encode cs) = ⟨tree, false⟩ := by
  have whole := readsTo_spelled spelled [] [] trivial (fun b none => nomatch none)
  rw [List.append_nil] at whole
  show (run (.inside []) (encode cs)).finish = _
  rw [whole, run, tokens]
  rfl

/-! ### Values that nobody wants -/

theorem checkItems_iff {items : List Tree} :
    Tree.checkItems items = .ok () ↔ ∀ item ∈ items, item.check = .ok () := by
  induction items with
  | nil => simp [Tree.checkItems]
  | cons item items ih =>
    rw [List.forall_mem_cons, ← ih, Tree.checkItems]
    cases item.check <;> simp [bind, Except.bind]

theorem checkMembers_iff {members : List (RawString × Tree)} :
    Tree.checkMembers members = .ok () ↔
      ∀ member ∈ members, member.1.check = .ok () ∧ member.2.check = .ok () := by
  induction members with
  | nil => simp [Tree.checkMembers]
  | cons member members ih =>
    rw [List.forall_mem_cons, ← ih, Tree.checkMembers, Tree.checkMember]
    cases member.1.check <;> cases member.2.check <;> simp [bind, Except.bind]

/-- A value that is spelled has no fault in it. -/
theorem check_spelled {tree : Tree} {cs : List Char} (spelled : Spelled tree cs) :
    tree.check = .ok () := by
  have closed {raw : RawString} {key : List Char} (written : KeyText raw key) :
      raw.check = .ok () := by
    cases written
    rfl
  induction spelled with
  | string written => exact closed written
  | @array rows filled each ih =>
    have items : Tree.checkItems (rows.map (·.1)) = .ok () :=
      checkItems_iff.mpr (List.forall_mem_map.mpr ih)
    rw [Tree.check, items]
    rfl
  | @object rows filled keys each ih =>
    have members : Tree.checkMembers (rows.map (·.1)) = .ok () :=
      checkMembers_iff.mpr (List.forall_mem_map.mpr fun row member =>
        ⟨closed (keys row member), ih row member⟩)
    rw [Tree.check, members]
    rfl
  | padded left right inner ih => exact ih
  | _ => rfl

/-- Nor have the members of an object that is spelled. -/
theorem check_members {members : List (RawString × Tree)} {cs : List Char}
    (spelled : Spelled (.object members none) cs) : ∀ member ∈ members, member.2.check = .ok () := by
  have whole := check_spelled spelled
  rw [Tree.check] at whole
  cases checked : Tree.checkMembers members with
  | error fault =>
    rw [checked] at whole
    cases whole
  | ok => exact fun member inside => (checkMembers_iff.mp checked member inside).2

/-- The keys of an object that is spelled are strings between quotes. -/
theorem keys_written {tree : Tree} {cs : List Char} (spelled : Spelled tree cs)
    {members : List (RawString × Tree)} (object : tree = .object members none) :
    ∀ member ∈ members, ∃ key, KeyText member.1 key := by
  induction spelled with
  | object filled keys each ih =>
    cases object
    exact List.forall_mem_map.mpr fun row inside => ⟨_, keys row inside⟩
  | emptyObject blanks =>
    cases object
    exact List.forall_mem_nil _
  | padded left right inner ih => exact ih object
  | _ => cases object

end PackageLoader.JsonGrammar
