import Mathlib.Data.Bool.AllAny
import Mathlib.Data.List.Find
import PackageLoader.Proofs.ClauseAlone

/-! Tokens taken without the text around them. In front of white space, of a quote or of the end, the
lexer takes the same token from its text alone as it took where the text went on. -/
namespace PackageLoader.TokensApart
open ClauseAlone StatementEnds Text TokenText

/-! ## Dividing characters -/

theorem numerals_apart : (numeralRanges.all fun numerals =>
    wideBlanks.all fun blanks => numerals.2 < blanks.1 || blanks.2 < numerals.1) = true := by
  decide +kernel

theorem isDigit_bounds {c : Char} (digit : c.isDigit = true) : 0x30 ≤ c.toNat ∧ c.toNat ≤ 0x39 := by
  have bounds : (decide (c.val ≥ '0'.val) && decide (c.val ≤ '9'.val)) = true := digit
  simp only [Bool.and_eq_true, decide_eq_true_eq] at bounds
  exact ⟨UInt32.le_iff_toNat_le.mp bounds.1, UInt32.le_iff_toNat_le.mp bounds.2⟩

theorem isBlank_of_isDigit {c : Char} (digit : c.isDigit = true) : isBlank c = false := by
  have bounds := isDigit_bounds digit
  rw [Bool.eq_false_iff]
  intro white
  simp only [isBlank, Bool.or_eq_true, Bool.and_eq_true, decide_eq_true_eq, beq_iff_eq] at white
  omega

theorem isWordChar_of_isBlank {c : Char} (white : isBlank c = true) : isWordChar c = false := by
  have noLetter := isLetter_of_isBlank white
  rw [isLetter] at noLetter
  rw [isWordChar]
  split
  · rename_i ascii
    rw [if_pos ascii] at noLetter
    have noDigit : c.isDigit = false := by
      rw [Bool.eq_false_iff]
      intro digit
      cases white.symm.trans (isBlank_of_isDigit digit)
    exact Bool.or_eq_false_iff.mpr ⟨noLetter, noDigit⟩
  · rename_i wide
    rw [if_neg wide] at noLetter
    rw [noLetter, Bool.false_or, Bool.eq_false_iff]
    intro numeral
    obtain ⟨blanks, blank, above, below⟩ := covers_wideBlanks white (Nat.le_of_not_lt wide)
    obtain ⟨numerals, member, covered⟩ := List.any_eq_true.mp numeral
    have apart := List.all_eq_true.mp (List.all_eq_true.mp numerals_apart _ member) _ blank
    simp only [Bool.and_eq_true, Bool.or_eq_true, decide_eq_true_eq] at covered apart
    omega

theorem isWordChar_of_isAlphanum {c : Char} (word : c.isAlphanum = true) : isWordChar c = true := by
  have ascii : c.toNat < 0x80 := by
    rcases Bool.or_eq_true_iff.mp (show (c.isAlpha || c.isDigit) = true from word) with alpha | digit
    · have bounds := isAlpha_bounds alpha
      omega
    · have bounds := isDigit_bounds digit
      omega
  rw [isWordChar, if_pos ascii, word]

/-- No word, number or symbol goes on with white space or a quote. -/
def divides (c : Char) : Bool :=
  isBlank c || ['"', '\'', '\x60'].contains c

theorem space_divides : divides ' ' = true := by decide

/-- Numbers go on with exponents, signs and dots, and comments start with slashes and stars. -/
theorem marks_join : ∀ d ∈ ['e', 'E', 'p', 'P', '+', '-', '.', '/', '*'], divides d = false :=
  List.all_iff_forall_prop.mp (by decide)

section Divides

variable {c : Char} (division : divides c = true)
include division

theorem ne_of_divides {d : Char} (joins : divides d = false) : c ≠ d := by
  rintro rfl
  cases division.symm.trans joins

theorem isIdentPart_of_divides : isIdentPart c = false := by
  have noWord : isWordChar c = false := by
    simp only [divides, Bool.or_eq_true, List.contains_eq_mem, decide_eq_true_eq, List.mem_cons,
      List.not_mem_nil, or_false] at division
    rcases division with white | rfl | rfl | rfl
    · exact isWordChar_of_isBlank white
    all_goals rfl
  rw [isIdentPart, noWord, Bool.false_or, decide_eq_false_iff_not]
  exact ne_of_divides division rfl

theorem isNumberPart_of_divides : ¬ (c.isAlphanum || c = '_') = true := by
  have noPart := isIdentPart_of_divides division
  rw [Bool.or_eq_true]
  rintro (word | line)
  · rw [isIdentPart, isWordChar_of_isAlphanum word] at noPart
    cases noPart
  · rw [isIdentPart, line, Bool.or_true] at noPart
    cases noPart

theorem isExponentMark_of_divides (hex : Bool) : ¬ isExponentMark hex c = true := by
  have apart (d : Char) (mark : d ∈ ['e', 'E', 'p', 'P', '+', '-', '.', '/', '*']) : c ≠ d :=
    ne_of_divides division (marks_join d mark)
  cases hex <;> simp [isExponentMark, apart]

end Divides

/-- The text has ended or goes on with a character that divides. -/
def Parted (cs : List Char) : Prop :=
  ∀ c ∈ cs.head?, divides c = true

variable {more : List Char}

/-! ## Numbers -/

section Steps

variable {hex float : Bool} {c : Char} {rest : List Char}

theorem scanNumber_sign (mark : isExponentMark hex c = true) {sign : Char} (signed : sign = '+' ∨ sign = '-') :
    scanNumber hex float (c :: sign :: rest) = ((scanNumber hex true rest).push sign).push c := by
  rw [scanNumber.eq_def]
  simp only [if_pos mark]
  rcases signed with rfl | rfl <;> rfl

theorem scanNumber_mark (mark : isExponentMark hex c = true)
    (unsigned : ∀ d ∈ rest.head?, d ≠ '+' ∧ d ≠ '-') :
    scanNumber hex float (c :: rest) = (scanNumber hex true rest).push c := by
  rw [scanNumber.eq_def]
  simp only [if_pos mark]
  split
  · exact absurd rfl (unsigned _ rfl).1
  · exact absurd rfl (unsigned _ rfl).2
  · rfl

theorem scanNumber_part (noMark : ¬ isExponentMark hex c = true)
    (part : (c.isAlphanum || c = '_') = true) :
    scanNumber hex float (c :: rest) = (scanNumber hex float rest).push c := by
  rw [scanNumber.eq_def]
  simp only [if_neg noMark, if_pos part]

theorem scanNumber_dot (noMark : ¬ isExponentMark hex c = true)
    (noPart : ¬ (c.isAlphanum || c = '_') = true)
    (dot : (c = '.' && !float && rest.head? ≠ some '.') = true) :
    scanNumber hex float (c :: rest) = (scanNumber hex true rest).push c := by
  rw [scanNumber.eq_def]
  simp only [if_neg noMark, if_neg noPart, if_pos dot]

theorem scanNumber_stop (noMark : ¬ isExponentMark hex c = true)
    (noPart : ¬ (c.isAlphanum || c = '_') = true)
    (noDot : ¬ (c = '.' && !float && rest.head? ≠ some '.') = true) :
    scanNumber hex float (c :: rest) = ⟨[], float, c :: rest⟩ := by
  rw [scanNumber.eq_def]
  simp only [if_neg noMark, if_neg noPart, if_neg noDot]

end Steps

theorem scanNumber_parted (hex float : Bool) (parted : Parted more) :
    scanNumber hex float more = ⟨[], float, more⟩ := by
  cases more with
  | nil => rfl
  | cons c more =>
    have division := parted c rfl
    refine scanNumber_stop (isExponentMark_of_divides division hex) (isNumberPart_of_divides division) ?_
    simp [ne_of_divides division (marks_join '.' (by simp))]

/-- Behind a text that was taken stands first what stood there, or what divides it from more. -/
theorem head_taken {text rest cs : List Char} (whole : text ++ rest = cs) (parted : Parted more)
    {c : Char} (first : (text ++ more).head? = some c) :
    divides c = true ∨ cs.head? = some c := by
  cases text with
  | nil => exact .inl (parted c first)
  | cons d text => exact .inr (whole ▸ first)

/-- A number is taken again in front of what divides. -/
theorem scanNumber_again (hex float : Bool) (cs : List Char) (parted : Parted more) :
    scanNumber hex float ((scanNumber hex float cs).text ++ more) =
      ⟨(scanNumber hex float cs).text, (scanNumber hex float cs).flag, more⟩ := by
  have taken (rest : List Char) {c : Char} :=
    @head_taken more _ _ _ (scanNumber_append hex true rest) parted c
  fun_induction scanNumber hex float cs with
  | case1 float => exact scanNumber_parted hex float parted
  | case2 float c mark rest ih =>
    have step := @scanNumber_sign hex float c (((scanNumber hex true rest)).text ++ more) mark _ (.inl rfl)
    rw [ih] at step
    exact step
  | case3 float c mark rest ih =>
    have step := @scanNumber_sign hex float c (((scanNumber hex true rest)).text ++ more) mark _ (.inr rfl)
    rw [ih] at step
    exact step
  | case4 float c mark rest noPlus noMinus ih =>
    have unsigned : ∀ d ∈ ((scanNumber hex true rest).text ++ more).head?, d ≠ '+' ∧ d ≠ '-' := by
      intro d first
      rcases taken rest first with division | same
      · exact ⟨ne_of_divides division (marks_join '+' (by simp)),
          ne_of_divides division (marks_join '-' (by simp))⟩
      · obtain ⟨tail, rfl⟩ := List.head?_eq_some_iff.mp same
        exact ⟨fun plus => noPlus tail (plus ▸ rfl), fun minus => noMinus tail (minus ▸ rfl)⟩
    have step := @scanNumber_mark hex float c _ mark unsigned
    rw [ih] at step
    exact step
  | case5 float c rest noMark part ih =>
    have step := @scanNumber_part hex float c ((scanNumber hex float rest).text ++ more) noMark part
    rw [ih] at step
    exact step
  | case6 float c rest noMark noPart dot ih =>
    have again : (c = '.' && !float && ((scanNumber hex true rest).text ++ more).head? ≠ some '.') =
        true := by
      simp only [Bool.and_eq_true, decide_eq_true_eq] at dot ⊢
      refine ⟨dot.1, fun first => ?_⟩
      rcases taken rest first with division | same
      · cases division
      · exact dot.2 same
    have step := @scanNumber_dot hex float c _ noMark noPart again
    rw [ih] at step
    exact step
  | case7 float => exact scanNumber_parted hex float parted

/-! ## Literals in quotes -/

theorem scanQuoted_closing {quote : Char} (plain : quote ≠ '\\') (visible : quote ≠ '\n')
    (rest : List Char) : scanQuoted quote (quote :: rest) = ⟨[quote], true, rest⟩ := by
  rw [scanQuoted.eq_def]
  split <;> simp_all

theorem scanQuoted_plain {quote c : Char} (plain : c ≠ '\\') (visible : c ≠ '\n')
    (inside : c ≠ quote) (rest : List Char) :
    scanQuoted quote (c :: rest) = (scanQuoted quote rest).push c := by
  rw [scanQuoted.eq_def]
  split <;> simp_all

theorem ne_backslash {c : Char} {rest : List Char} (last : c = '\\' → rest = [] → False)
    (inner : ∀ d tail, c = '\\' → rest = d :: tail → False) : c ≠ '\\' := by
  intro escape
  cases rest with
  | nil => exact last escape rfl
  | cons d tail => exact inner d tail escape rfl

/-- A closed literal is taken again in front of any text. -/
theorem scanQuoted_again (quote : Char) (cs more : List Char)
    (closed : (scanQuoted quote cs).flag = true) :
    scanQuoted quote ((scanQuoted quote cs).text ++ more) =
      ⟨(scanQuoted quote cs).text, true, more⟩ := by
  fun_induction scanQuoted quote cs with
  | case1 => cases closed
  | case2 => cases closed
  | case3 c rest ih => exact congrArg (fun s => (s.push c).push '\\') (ih closed)
  | case4 => cases closed
  | case5 rest last inner visible => exact scanQuoted_closing (ne_backslash last inner) visible more
  | case6 c rest last inner visible inside ih =>
    have step := scanQuoted_plain (ne_backslash last inner) visible inside
      ((scanQuoted quote rest).text ++ more)
    rw [ih closed] at step
    exact step

/-- So is a closed raw string. -/
theorem scanRaw_again (cs more : List Char) (closed : (scanRaw cs).flag = true) :
    scanRaw ((scanRaw cs).text ++ more) = ⟨(scanRaw cs).text, true, more⟩ := by
  fun_induction scanRaw cs with
  | case1 => cases closed
  | case2 rest => exact if_pos rfl
  | case3 c rest inside ih =>
    have step : scanRaw (c :: ((scanRaw rest).text ++ more)) =
        (scanRaw ((scanRaw rest).text ++ more)).push c := if_neg inside
    rw [ih closed] at step
    exact step

/-! ## Symbols -/

/-- No symbol is spelled with a character that divides. -/
theorem spellings_join : ∀ entry ∈ Symbol.spellings, (entry.1.any divides) = false :=
  List.all_iff_forall_prop.mp (by decide +kernel)

theorem longest?_text : ∀ s ∈ Symbol.all, Symbol.longest? s.text.toList = some (s.text.toList, s) :=
  List.all_iff_forall_prop.mp (by decide +kernel)

theorem isPrefixOf_parted {spelling : List Char} (joins : spelling.any divides = false) (text : List Char)
    (parted : Parted more) : spelling.isPrefixOf (text ++ more) = spelling.isPrefixOf text := by
  induction text generalizing spelling with
  | nil =>
    cases spelling with
    | nil => simp
    | cons d spelling =>
      cases more with
      | nil => rfl
      | cons c more =>
        have apart : (d == c) = false :=
          beq_false_of_ne (ne_of_divides (parted c rfl) (Bool.or_eq_false_iff.mp joins).1).symm
        exact congrArg (· && spelling.isPrefixOf more) apart
  | cons c text ih =>
    cases spelling with
    | nil => simp
    | cons d spelling =>
      exact congrArg (d == c && ·) (ih (Bool.or_eq_false_iff.mp joins).2)

/-- The longest symbol is found within the text in front of what divides. -/
theorem longest?_parted (text : List Char) (parted : Parted more) :
    Symbol.longest? (text ++ more) = Symbol.longest? text := by
  apply List.find?_congr
  intro entry member
  exact isPrefixOf_parted (spellings_join entry member) text parted

/-! ## Tokens -/

/-- The lexer takes this text for a token, with nothing to skip in front of it. -/
structure Starts (kind : TokenKind) (text rest : List Char) : Prop where
  bare : Trivia.skip .between (text ++ rest) = ⟨[], false, true, text ++ rest⟩
  token : ∃ c tail, text ++ rest = c :: tail ∧ lexeme c tail = ⟨kind, text, rest⟩

theorem skip_bare {c : Char} {rest : List Char} (filled : isBlank c = false)
    (noComment : c = '/' → ∀ d ∈ rest.head?, d ≠ '/' ∧ d ≠ '*') :
    Trivia.skip .between (c :: rest) = ⟨[], false, true, c :: rest⟩ := by
  rw [Trivia.skip.eq_def]
  split <;> simp_all

theorem starts_word {c : Char} {tail rest : List Char} (start : isIdentStart c = true)
    (parts : ∀ d ∈ tail, isIdentPart d = true) (ends : ∀ d ∈ rest.head?, isIdentPart d = false) :
    Starts (wordKind (String.ofList (c :: tail))) (c :: tail) rest where
  bare := skip_word start (tail ++ rest)
  token := ⟨c, tail ++ rest, rfl, lexeme_word start parts ends⟩

/-! ### Numbers -/

/-- Whether a number is written in base sixteen. -/
def isHex (cs : List Char) : Bool :=
  cs.take 2 = ['0', 'x'] || cs.take 2 = ['0', 'X']

theorem isHex_iff {cs : List Char} :
    isHex cs = true ↔ ∃ rest, cs = '0' :: 'x' :: rest ∨ cs = '0' :: 'X' :: rest := by
  constructor
  · intro hex
    simp only [isHex, Bool.or_eq_true, decide_eq_true_eq] at hex
    have whole := List.take_append_drop 2 cs
    rcases hex with lower | upper
    · exact ⟨cs.drop 2, .inl (by rw [← whole, lower]; rfl)⟩
    · exact ⟨cs.drop 2, .inr (by rw [← whole, upper]; rfl)⟩
  · rintro ⟨rest, rfl | rfl⟩ <;> rfl

/-- The token that a scanned number is. -/
def numberOf (s : Scanned) : Lexeme :=
  ⟨.literal (if s.text.getLast? = some 'i' then .imag else if s.flag then .float else .int)
    (String.ofList s.text), s.text, s.rest⟩

theorem numberLexeme_eq (cs : List Char) :
    numberLexeme cs = numberOf (scanNumber (isHex cs) false cs) := by
  unfold numberLexeme
  split
  · rfl
  · rfl
  · rename_i lower upper
    have decimal : isHex cs = false := by
      rw [Bool.eq_false_iff, ne_eq, isHex_iff]
      rintro ⟨rest, same | same⟩
      · exact lower rest same
      · exact upper rest same
    rw [decimal]
    rfl

/-- A letter or digit is taken as the first character of a number's text. -/
theorem scanNumber_part_head {c : Char} (part : (c.isAlphanum || c = '_') = true) (hex float : Bool)
    (rest : List Char) : (scanNumber hex float (c :: rest)).text.head? = some c := by
  by_cases mark : isExponentMark hex c = true
  · cases rest with
    | nil => rw [scanNumber_mark mark (by simp)]; rfl
    | cons d rest =>
      by_cases signed : d = '+' ∨ d = '-'
      · rw [scanNumber_sign mark signed]
        rfl
      · rw [not_or] at signed
        rw [scanNumber_mark mark (by simpa using signed)]
        rfl
  · rw [scanNumber_part mark part]
    rfl

/-- A dot in front of a digit is taken together with it. -/
theorem scanNumber_dot_digit {d : Char} (digit : d.isDigit = true) (hex : Bool) (rest : List Char) :
    ∃ tail, (scanNumber hex false ('.' :: d :: rest)).text = '.' :: d :: tail := by
  have part : (d.isAlphanum || d = '_') = true := by simp [Char.isAlphanum, digit]
  have single : d ≠ '.' := by
    rintro rfl
    cases digit
  have step := @scanNumber_dot hex false '.' (d :: rest) (by cases hex <;> decide) (by decide)
    (by simp [single])
  have head := scanNumber_part_head part hex true rest
  obtain ⟨tail, text⟩ := List.head?_eq_some_iff.mp head
  exact ⟨tail, by rw [step, Scanned.text_push, text]⟩

theorem isHex_again {text rest cs : List Char} (whole : text ++ rest = cs)
    (taken : isHex cs = true → 2 ≤ text.length) (parted : Parted more) :
    isHex (text ++ more) = isHex cs := by
  by_cases long : 2 ≤ text.length
  · rw [← whole, isHex, isHex, List.take_append_of_le_length long, List.take_append_of_le_length long]
  · rw [Bool.eq_false_iff.mpr (mt taken long), Bool.eq_false_iff, ne_eq, isHex_iff]
    -- Of a shorter text the second character would be the one that divides it from more.
    rintro ⟨others, same⟩
    have apart {x : Char} (first : more.head? = some x) : divides x = true := parted x first
    cases text with
    | nil =>
      rcases same with rfl | rfl <;> cases apart rfl
    | cons c text =>
      cases text with
      | nil =>
        rcases same with same | same <;> cases apart (congrArg List.head? (List.cons.inj same).2)
      | cons d text => simp at long

theorem isHex_taken {cs : List Char} (hex : isHex cs = true) :
    2 ≤ (scanNumber (isHex cs) false cs).text.length := by
  obtain ⟨rest, same⟩ := isHex_iff.mp hex
  rw [hex]
  rcases same with rfl | rfl
  all_goals
    rw [scanNumber_part (by decide) (by decide), scanNumber_part (by decide) (by decide)]
    simp

/-- A digit or a dot in front of one starts a number. -/
def startsNumber (c : Char) (rest : List Char) : Bool :=
  c.isDigit || (c = '.' && rest.head?.any Char.isDigit)

/-- What starts a number still does in front of what divides. -/
theorem startsNumber_again {c : Char} {rest text : List Char} {hex : Bool}
    (starts : startsNumber c rest = true) (scanned : (scanNumber hex false (c :: rest)).text = c :: text) :
    startsNumber c (text ++ more) = true := by
  simp only [startsNumber, Bool.or_eq_true, Bool.and_eq_true, decide_eq_true_eq] at starts ⊢
  refine starts.imp_right fun ⟨dot, digits⟩ => ⟨dot, ?_⟩
  subst dot
  cases rest with
  | nil => cases digits
  | cons d rest =>
    obtain ⟨tail, both⟩ := scanNumber_dot_digit digits hex rest
    obtain rfl := (List.cons.inj (scanned.symm.trans both)).2
    exact digits

theorem lexeme_number {c : Char} {rest : List Char} (noWord : isIdentStart c = false)
    (starts : startsNumber c rest = true) :
    lexeme c rest = numberOf (scanNumber (isHex (c :: rest)) false (c :: rest)) := by
  rw [← numberLexeme_eq, lexeme, if_neg (Bool.eq_false_iff.mp noWord)]
  exact if_pos starts

/-- A number stands on its own. -/
theorem starts_number {c : Char} {rest : List Char} (noWord : isIdentStart c = false)
    (starts : startsNumber c rest = true) (parted : Parted more) :
    Starts (lexeme c rest).kind (lexeme c rest).text more := by
  have whole := scanNumber_append (isHex (c :: rest)) false (c :: rest)
  have filled := @scanNumber_text_ne_nil (isHex (c :: rest)) c rest starts
  have again := scanNumber_again (isHex (c :: rest)) false (c :: rest) parted
  have same := isHex_again whole isHex_taken parted
  have still (text : List Char) := @startsNumber_again more c rest text (isHex (c :: rest)) starts
  rw [lexeme_number noWord starts]
  generalize scanNumber (isHex (c :: rest)) false (c :: rest) = s at *
  obtain ⟨_ | ⟨d, text⟩, flag, behind⟩ := s
  · exact absurd rfl filled
  · obtain rfl : d = c := (List.cons.inj whole).1
    have plain : isBlank d = false ∧ d ≠ '/' := by
      simp only [startsNumber, Bool.or_eq_true, Bool.and_eq_true, decide_eq_true_eq] at starts
      rcases starts with digit | ⟨rfl, -⟩
      · refine ⟨isBlank_of_isDigit digit, ?_⟩
        rintro rfl
        cases digit
      · decide
    refine ⟨skip_bare plain.1 fun slash => absurd slash plain.2, d, text ++ more, rfl, ?_⟩
    rw [lexeme_number noWord (still text rfl)]
    exact congrArg numberOf ((congrArg (scanNumber · false _) same).trans again)

/-! ### Literals and symbols -/

/-- What starts neither a word nor a number is a literal in quotes, a symbol or no token. -/
theorem lexeme_other {c : Char} {rest : List Char} (noWord : isIdentStart c = false)
    (noNumber : startsNumber c rest = false) : lexeme c rest =
      if c = '"' then literalLexeme .string c (scanQuoted c rest)
      else if c = '\'' then literalLexeme .rune c (scanQuoted c rest)
      else if c = '\x60' then literalLexeme .string c (scanRaw rest)
      else match Symbol.longest? (c :: rest) with
        | some (text, s) => ⟨.symbol s, text, (c :: rest).drop text.length⟩
        | none => ⟨.invalid c, [c], rest⟩ := by
  rw [lexeme, if_neg (Bool.eq_false_iff.mp noWord)]
  exact if_neg (Bool.eq_false_iff.mp noNumber)

theorem lexeme_string (rest : List Char) :
    lexeme '"' rest = literalLexeme .string '"' (scanQuoted '"' rest) :=
  lexeme_other (by decide) rfl

theorem lexeme_rune (rest : List Char) :
    lexeme '\'' rest = literalLexeme .rune '\'' (scanQuoted '\'' rest) :=
  lexeme_other (by decide) rfl

theorem lexeme_raw (rest : List Char) :
    lexeme '\x60' rest = literalLexeme .string '\x60' (scanRaw rest) :=
  lexeme_other (by decide) rfl

/-- A closed literal that the lexer takes in front of some text. -/
theorem starts_literal {kind : LiteralKind} {quote : Char} {text rest : List Char}
    (quotes : quote ∈ ['"', '\'', '\x60'])
    (taken : lexeme quote (text ++ rest) = literalLexeme kind quote ⟨text, true, rest⟩) :
    Starts (.literal kind (String.ofList (quote :: text))) (quote :: text) rest where
  bare := by
    have plain : ∀ c ∈ ['"', '\'', '\x60'], isBlank c = false ∧ c ≠ '/' :=
      List.all_iff_forall_prop.mp (by decide)
    exact skip_bare (plain quote quotes).1 fun slash => absurd slash (plain quote quotes).2
  token := ⟨quote, text ++ rest, rfl, taken⟩

/-- No text that starts with these characters is white space, a comment or a token other than a
symbol. -/
def isSymbolic : List Char → Bool
  | [] => false
  | c :: tail => !isIdentStart c && !startsNumber c tail && !isBlank c &&
    !(['"', '\'', '\x60'].contains c) && (c ≠ '/' || tail.head? ≠ some '/' && tail.head? ≠ some '*')

theorem symbols_symbolic : ∀ s ∈ Symbol.all, isSymbolic s.text.toList = true :=
  List.all_iff_forall_prop.mp (by decide +kernel)

theorem mem_symbols (s : Symbol) : s ∈ Symbol.all := by
  cases s with
  | arith op | assignOp op => cases op <;> decide
  | _ => decide

theorem startsNumber_parted {c : Char} {tail : List Char} (noNumber : startsNumber c tail = false)
    (parted : Parted more) : startsNumber c (tail ++ more) = false := by
  cases tail with
  | cons d tail => exact noNumber
  | nil =>
    cases more with
    | nil => exact noNumber
    | cons d more =>
      have noDigit : d.isDigit = false := by
        have noPart := isNumberPart_of_divides (parted d rfl)
        simp only [Char.isAlphanum, Bool.or_eq_true, not_or, Bool.not_eq_true] at noPart
        exact noPart.1.2
      simpa [startsNumber, noDigit] using noNumber

theorem isSymbolic_parted {text : List Char} (symbolic : isSymbolic text = true) (parted : Parted more) :
    isSymbolic (text ++ more) = true := by
  cases text with
  | nil => cases symbolic
  | cons c tail =>
    simp only [List.cons_append, isSymbolic, Bool.and_eq_true, Bool.not_eq_true', Bool.or_eq_true,
      decide_eq_true_eq] at symbolic ⊢
    obtain ⟨⟨⟨⟨noWord, noNumber⟩, filled⟩, noQuote⟩, noComment⟩ := symbolic
    refine ⟨⟨⟨⟨noWord, startsNumber_parted noNumber parted⟩, filled⟩, noQuote⟩, ?_⟩
    refine noComment.imp_right fun ⟨noLine, noBlock⟩ => ⟨fun first => ?_, fun first => ?_⟩
    · rcases head_taken (List.append_nil tail) parted first with division | same
      · cases division
      · exact noLine same
    · rcases head_taken (List.append_nil tail) parted first with division | same
      · cases division
      · exact noBlock same

/-- A symbol stands in front of any text with which it makes no longer one. -/
theorem starts_found {text rest : List Char} {s : Symbol} (symbolic : isSymbolic (text ++ rest) = true)
    (found : Symbol.longest? (text ++ rest) = some (text, s)) : Starts (.symbol s) text rest := by
  obtain ⟨-, -, visible⟩ := Symbol.longest?_eq_some found
  cases text with
  | nil => exact absurd rfl visible
  | cons c tail =>
    simp only [List.cons_append, isSymbolic, Bool.and_eq_true, Bool.not_eq_true', Bool.or_eq_true,
      decide_eq_true_eq, List.contains_eq_mem, decide_eq_false_iff_not, List.mem_cons, not_or] at symbolic
    obtain ⟨⟨⟨⟨noWord, noNumber⟩, filled⟩, noString, noRune, noRaw, -⟩, noComment⟩ := symbolic
    refine ⟨skip_bare filled ?_, c, tail ++ rest, rfl, ?_⟩
    · intro slash d first
      rcases noComment with other | ⟨noLine, noBlock⟩
      · exact absurd slash other
      · exact ⟨fun line => noLine (line ▸ first), fun block => noBlock (block ▸ first)⟩
    · rw [lexeme_other noWord noNumber, if_neg noString, if_neg noRune, if_neg noRaw]
      rw [← List.cons_append, found]
      simp

/-- A symbol stands on its own. -/
theorem starts_symbol (s : Symbol) (parted : Parted more) : Starts (.symbol s) s.text.toList more := by
  have found := longest?_parted s.text.toList parted
  have symbolic := symbols_symbolic s (mem_symbols s)
  rw [longest?_text s (mem_symbols s)] at found
  exact starts_found (isSymbolic_parted symbolic parted) found

/-! ### Any token -/

/-- Whether a kind of token is one that no fault in the text gives. -/
def isSound : TokenKind → Bool
  | .invalid _ | .unterminatedString | .unterminatedComment => false
  | _ => true

theorem closed_of_isSound {kind : LiteralKind} {quote : Char} {s : Scanned}
    (sound : isSound (literalLexeme kind quote s).kind = true) : s.flag = true := by
  obtain ⟨text, flag, rest⟩ := s
  cases flag with
  | true => rfl
  | false => cases sound

/-- A literal that is not at fault stands on its own if its text is scanned again to the same end. -/
theorem starts_closed {kind : LiteralKind} {quote : Char} {rest : List Char} {s : Scanned}
    (quotes : quote ∈ ['"', '\'', '\x60']) (own : lexeme quote rest = literalLexeme kind quote s)
    (sound : isSound (lexeme quote rest).kind = true)
    (again : s.flag = true →
      lexeme quote (s.text ++ more) = literalLexeme kind quote ⟨s.text, true, more⟩) :
    Starts (lexeme quote rest).kind (lexeme quote rest).text more := by
  rw [own] at sound ⊢
  have closed := closed_of_isSound sound
  have starts := starts_literal quotes (again closed)
  obtain ⟨text, flag, behind⟩ := s
  cases closed
  exact starts

/-- Every token that is not at fault is taken again in front of what divides or the end of the text. -/
theorem lexeme_starts (c : Char) (rest : List Char) (sound : isSound (lexeme c rest).kind = true)
    (parted : Parted more) : Starts (lexeme c rest).kind (lexeme c rest).text more := by
  cases word : isIdentStart c with
  | true =>
    have ends : ∀ d ∈ more.head?, isIdentPart d = false := fun d first =>
      isIdentPart_of_divides (parted d first)
    rw [lexeme, if_pos word]
    exact starts_word word (List.all_eq_true.mp List.all_takeWhile) ends
  | false =>
    cases number : startsNumber c rest with
    | true => exact starts_number word number parted
    | false =>
      by_cases string : c = '"'
      · subst string
        refine starts_closed (by simp) (lexeme_string rest) sound fun closed => ?_
        rw [lexeme_string, scanQuoted_again _ _ _ closed]
      by_cases rune : c = '\''
      · subst rune
        refine starts_closed (by simp) (lexeme_rune rest) sound fun closed => ?_
        rw [lexeme_rune, scanQuoted_again _ _ _ closed]
      by_cases raw : c = '\x60'
      · subst raw
        refine starts_closed (by simp) (lexeme_raw rest) sound fun closed => ?_
        rw [lexeme_raw, scanRaw_again _ _ closed]
      rw [lexeme_other word number, if_neg string, if_neg rune, if_neg raw] at sound ⊢
      split at sound
      · rename_i text s found
        obtain ⟨rfl, -⟩ := Symbol.longest?_eq_some found
        exact starts_symbol s parted
      · cases sound

/-! ## Calls -/

/-- The state is in front of a text, but for white space and comments. Behind a token that can end a
statement these hold no line end. -/
def Before (ends : Bool) (cs : List Char) (s : LexState) : Prop :=
  s.afterStatement = ends ∧ ∃ gap,
    Trivia.skip .between s.rest = pushAll gap (Trivia.skip .between cs) ∧
      (ends = true → '\n' ∉ gap)

theorem before_here (offset : Nat) (cs : List Char) (ends : Bool) :
    Before ends cs ⟨offset, cs, ends⟩ :=
  ⟨rfl, [], rfl, fun _ => List.not_mem_nil⟩

theorem Before.skipped {ends : Bool} {gap cs : List Char} {s : LexState}
    (before : Before ends (gap ++ cs) s) (skips : Skipped true gap cs)
    (sameLine : ends = true → '\n' ∉ gap) : Before ends cs s := by
  obtain ⟨flag, front, found, within⟩ := before
  refine ⟨flag, front ++ gap, ?_, fun statement => ?_⟩
  · rw [found, skips.skip_append, if_pos rfl, pushAll, pushAll, pushAll, List.foldr_append]
  · rw [List.mem_append, not_or]
    exact ⟨within statement, sameLine statement⟩

/-- A call in front of a token gives it. -/
theorem Starts.next {kind : TokenKind} {text rest : List Char} {ends : Bool} {s : LexState}
    (starts : Starts kind text rest) (before : Before ends (text ++ rest) s) :
    ∃ place offset, s.next = (⟨kind, place⟩, ⟨offset, rest, kind.endsStatement⟩) := by
  obtain ⟨flag, gap, found, sameLine⟩ := before
  obtain ⟨c, tail, whole, token⟩ := starts.token
  rw [starts.bare, whole, pushAll_eq] at found
  have comes := next_comes s
  rw [found] at comes
  generalize s.next = result at comes
  cases comes with
  | statementEnd _ lineEnd statement =>
    rcases lineEnd with newline | rest
    · exact absurd (by simpa using newline) (sameLine (flag.symm.trans statement))
    · cases rest
  | textEnd rest => cases rest
  | token behind =>
    cases behind
    rw [token]
    exact ⟨_, _, rfl⟩

/-- In front of no text the end is given, if no semicolon is due. -/
theorem next_ended {s : LexState} (before : Before false [] s) : s.next.1.kind = .eof := by
  obtain ⟨quiet, gap, found, -⟩ := before
  have nothing : Trivia.skip .between [] = ⟨[], false, true, []⟩ := rfl
  rw [nothing, pushAll_eq] at found
  have comes := next_comes s
  rw [found] at comes
  generalize s.next = result at comes
  cases comes with
  | statementEnd _ _ ends => cases quiet.symm.trans ends
  | textEnd => rfl
  | token behind => cases behind

/-! ## The start of a text -/

/-- No token starts with a byte order mark. -/
theorem lexeme_mark (rest : List Char) : (lexeme '\uFEFF' rest).kind = .invalid '\uFEFF' := by
  have noSymbol : Symbol.longest? ('\uFEFF' :: rest) = none := rfl
  rw [lexeme_other (by decide +kernel) rfl, noSymbol]
  rfl

theorem Starts.unmarked {kind : TokenKind} {text rest : List Char} (starts : Starts kind text rest)
    (sound : isSound kind = true) : (text ++ rest).head? ≠ some '\uFEFF' := by
  obtain ⟨c, tail, whole, token⟩ := starts.token
  rw [whole]
  rintro ⟨⟩
  have invalid : kind = .invalid '\uFEFF' := (congrArg Lexeme.kind token).symm.trans (lexeme_mark tail)
  rw [invalid] at sound
  cases sound

theorem start_unmarked {text : String} (unmarked : text.toList.head? ≠ some '\uFEFF') :
    LexState.start text = ⟨0, text.toList, false⟩ := by
  unfold LexState.start
  split
  · rename_i marked
    rw [marked] at unmarked
    exact absurd rfl unmarked
  · rfl

end PackageLoader.TokensApart
