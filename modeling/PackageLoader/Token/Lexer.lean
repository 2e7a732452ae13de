import PackageLoader.Text.CharClass
import PackageLoader.Text.Utf8
import PackageLoader.Token.Basic

/-!
Lexing. Every scanner splits its input into the text it takes and the rest, and a scanner theorem
says that the two together are the input. Blanks and comments are skipped in front of a token, and
a semicolon is inserted where a line or the text ends behind a token that can end a statement.
-/
namespace PackageLoader

open Text

/-! ## Skipped text -/

/-- Where skipping stands: between comments, in a line comment or in a block comment. -/
inductive TriviaMode where
  | between
  | line
  | block
  deriving DecidableEq, Repr

/-- Skipped text, whether it holds a newline, whether its last comment is closed, and the rest. -/
structure Trivia where
  text : List Char
  newline : Bool
  closed : Bool
  rest : List Char

namespace Trivia

/-- Puts a skipped character in front. -/
def push (c : Char) (t : Trivia) : Trivia :=
  { t with text := c :: t.text, newline := t.newline || c = '\n' }

/-- `skip_whitespace`: skips blanks and comments. A block comment that is never closed takes the
whole text. -/
def skip : TriviaMode → List Char → Trivia
  | .block, [] => ⟨[], false, false, []⟩
  | .between, [] | .line, [] => ⟨[], false, true, []⟩
  | .between, '/' :: '/' :: rest => push '/' (push '/' (skip .line rest))
  | .between, '/' :: '*' :: rest => push '/' (push '*' (skip .block rest))
  | .between, c :: rest =>
    if isBlank c then push c (skip .between rest) else ⟨[], false, true, c :: rest⟩
  | .line, c :: rest => push c (skip (if c = '\n' then .between else .line) rest)
  | .block, '*' :: '/' :: rest => push '*' (push '/' (skip .between rest))
  | .block, c :: rest => push c (skip .block rest)

@[simp]
theorem text_push (c : Char) (t : Trivia) : (push c t).text = c :: t.text := rfl

@[simp]
theorem rest_push (c : Char) (t : Trivia) : (push c t).rest = t.rest := rfl

/-- Skipping loses no text. -/
theorem text_append_rest (mode : TriviaMode) (cs : List Char) :
    (skip mode cs).text ++ (skip mode cs).rest = cs := by
  fun_induction skip mode cs <;> simp_all

end Trivia

/-! ## Scanners -/

/-- The text of one token and what follows it. -/
structure Lexeme where
  kind : TokenKind
  text : List Char
  rest : List Char

/-- Characters that may stand behind the first one of an identifier. -/
def isIdentPart (c : Char) : Bool :=
  isWordChar c || c = '_'

/-- Characters that an identifier may start with. -/
def isIdentStart (c : Char) : Bool :=
  isLetter c || c = '_'

/-- `lookup_ident`: a word is a keyword if it spells one and an identifier otherwise. -/
def wordKind (s : String) : TokenKind :=
  match Keyword.ofText? s with
  | some word => .keyword word
  | none => .ident s

/-- The text taken by a scanner, what it found out about it and the rest. -/
structure Scanned where
  text : List Char
  flag : Bool
  rest : List Char

namespace Scanned

/-- Puts a taken character in front. -/
def push (c : Char) (s : Scanned) : Scanned :=
  { s with text := c :: s.text }

@[simp]
theorem text_push (c : Char) (s : Scanned) : (push c s).text = c :: s.text := rfl

@[simp]
theorem rest_push (c : Char) (s : Scanned) : (push c s).rest = s.rest := rfl

end Scanned

/-- The letters that start an exponent. -/
def isExponentMark (hex : Bool) (c : Char) : Bool :=
  if hex then c = 'p' || c = 'P' else c = 'e' || c = 'E'

/-- Takes a number: letters, digits and underscores of ASCII, a sign behind an exponent mark, and
one dot unless another dot follows it or an exponent mark came first. The flag says whether the
number has a dot or an exponent. -/
def scanNumber (hex : Bool) : Bool → List Char → Scanned
  | float, [] => ⟨[], float, []⟩
  | float, c :: rest =>
    if isExponentMark hex c then
      match rest with
      | '+' :: rest => (scanNumber hex true rest).push '+' |>.push c
      | '-' :: rest => (scanNumber hex true rest).push '-' |>.push c
      | rest => (scanNumber hex true rest).push c
    else if c.isAlphanum || c = '_' then (scanNumber hex float rest).push c
    else if c = '.' && !float && rest.head? ≠ some '.' then (scanNumber hex true rest).push c
    else ⟨[], float, c :: rest⟩

theorem scanNumber_append (hex float : Bool) (cs : List Char) :
    (scanNumber hex float cs).text ++ (scanNumber hex float cs).rest = cs := by
  fun_induction scanNumber hex float cs <;> simp_all

/-- `read_quoted`: takes the rest of a quoted literal behind its opening quote, up to the closing
quote. A newline or the end of the text leaves it open, but a character behind a backslash never
ends it. The flag says whether it is closed. -/
def scanQuoted (quote : Char) : List Char → Scanned
  | [] => ⟨[], false, []⟩
  | ['\\'] => ⟨['\\'], false, []⟩
  | '\\' :: c :: rest => (scanQuoted quote rest).push c |>.push '\\'
  | c :: rest =>
    if c = '\n' then ⟨[], false, c :: rest⟩
    else if c = quote then ⟨[c], true, rest⟩
    else (scanQuoted quote rest).push c

theorem scanQuoted_append (quote : Char) (cs : List Char) :
    (scanQuoted quote cs).text ++ (scanQuoted quote cs).rest = cs := by
  fun_induction scanQuoted quote cs <;> simp_all

/-- `read_raw_string`: takes the rest of a raw string behind its opening quote. Only the closing
quote ends it. -/
def scanRaw : List Char → Scanned
  | [] => ⟨[], false, []⟩
  | c :: rest => if c = '\x60' then ⟨[c], true, rest⟩ else (scanRaw rest).push c

theorem scanRaw_append (cs : List Char) : (scanRaw cs).text ++ (scanRaw cs).rest = cs := by
  fun_induction scanRaw cs <;> simp_all

/-- `read_number`: a number token: the suffix `i` makes it imaginary, a dot or an exponent a
float. -/
def numberLexeme (cs : List Char) : Lexeme :=
  let hex := match cs with
    | '0' :: 'x' :: _ | '0' :: 'X' :: _ => true
    | _ => false
  let s := scanNumber hex false cs
  let kind : LiteralKind :=
    if s.text.getLast? = some 'i' then .imag else if s.flag then .float else .int
  ⟨.literal kind (String.ofList s.text), s.text, s.rest⟩

/-- A literal token behind an opening quote, or the mark of an open one. -/
def literalLexeme (kind : LiteralKind) (quote : Char) (s : Scanned) : Lexeme :=
  let text := quote :: s.text
  ⟨if s.flag then .literal kind (String.ofList text) else .unterminatedString, text, s.rest⟩

/-- The token that starts with the given character. -/
def lexeme (c : Char) (rest : List Char) : Lexeme :=
  if isIdentStart c then
    let text := c :: rest.takeWhile isIdentPart
    ⟨wordKind (String.ofList text), text, rest.dropWhile isIdentPart⟩
  else if c.isDigit || (c = '.' && rest.head?.any Char.isDigit) then numberLexeme (c :: rest)
  else if c = '"' then literalLexeme .string c (scanQuoted c rest)
  else if c = '\'' then literalLexeme .rune c (scanQuoted c rest)
  else if c = '\x60' then literalLexeme .string c (scanRaw rest)
  else match Symbol.longest? (c :: rest) with
    | some (text, s) => ⟨.symbol s, text, (c :: rest).drop text.length⟩
    | none => ⟨.invalid c, [c], rest⟩

/-! ## Lexing a text -/

/-- `Lexer`: where lexing stands: the offset, the text from there on and whether the last token can
end a statement. -/
structure LexState where
  offset : Nat
  rest : List Char
  afterStatement : Bool

namespace LexState

/-- `Lexer::new`: the start of a text. One byte order mark in front is not part of any token. -/
def start (text : String) : LexState :=
  match text.toList with
  | '\uFEFF' :: rest => ⟨'\uFEFF'.utf8Size, rest, false⟩
  | cs => ⟨0, cs, false⟩

/-- Bounds the tokens that are still to come: each takes text or uses up the chance of a
semicolon. -/
def remaining (s : LexState) : Nat :=
  2 * s.rest.length + s.afterStatement.toNat

/-- `next_token`: reads the next token. -/
def next (s : LexState) : Token × LexState :=
  let skipped := Trivia.skip .between s.rest
  let start := s.offset + utf8Length skipped.text
  if skipped.closed && (skipped.newline || skipped.rest.isEmpty) && s.afterStatement then
    (⟨.semi, .point start⟩, ⟨start, skipped.rest, false⟩)
  else match skipped.rest with
    | [] =>
      (⟨if skipped.closed then .eof else .unterminatedComment, .point start⟩, ⟨start, [], false⟩)
    | c :: rest =>
      let found := lexeme c rest
      let stop := start + utf8Length found.text
      (⟨found.kind, .ofOffsets start stop⟩, ⟨stop, found.rest, found.kind.endsStatement⟩)

end LexState

/-! ## Progress -/

/-- A symbol is found by its spelling, which is never empty. -/
theorem Symbol.longest?_eq_some {cs text : List Char} {s : Symbol}
    (found : longest? cs = some (text, s)) : text = s.text.toList ∧ text <+: cs ∧ text ≠ [] := by
  have present := List.mem_of_find?_eq_some found
  have starts := List.find?_some found
  have spelled : text = s.text.toList := by
    simp only [spellings, List.mem_flatMap, List.mem_filter, List.mem_map, Prod.mk.injEq] at present
    obtain ⟨_, _, ⟨_, _, textEq, symbolEq⟩, _⟩ := present
    rw [← textEq, ← symbolEq]
  refine ⟨spelled, by simpa using starts, ?_⟩
  simp only [spellings, List.mem_flatMap, List.mem_filter] at present
  obtain ⟨n, small, _, long⟩ := present
  intro empty
  subst empty
  simp only [List.length_nil, decide_eq_true_eq] at long
  subst long
  simp at small

/-- A number starts with the character that it is recognised by. -/
theorem scanNumber_text_ne_nil {hex : Bool} {c : Char} {rest : List Char}
    (starts : (c.isDigit || (c = '.' && rest.head?.any Char.isDigit)) = true) :
    (scanNumber hex false (c :: rest)).text ≠ [] := by
  unfold scanNumber
  split
  · split <;> simp
  · split
    · simp
    · rename_i noWord
      have noDigit : c.isDigit = false := by
        cases digit : c.isDigit with
        | false => rfl
        | true => simp [Char.isAlphanum, digit] at noWord
      simp only [noDigit, Bool.false_or, Bool.and_eq_true, decide_eq_true_eq] at starts
      obtain ⟨dot, digits⟩ := starts
      have single : rest.head? ≠ some '.' := by
        intro dots
        rw [dots] at digits
        simp [Char.isDigit] at digits
      simp [dot, single]

/-- A token's text and the rest are the input. -/
theorem lexeme_append (c : Char) (rest : List Char) :
    (lexeme c rest).text ++ (lexeme c rest).rest = c :: rest := by
  unfold lexeme
  split
  · simp
  · split
    · exact scanNumber_append _ _ _
    · split
      · simp [literalLexeme, scanQuoted_append]
      · split
        · simp [literalLexeme, scanQuoted_append]
        · split
          · simp [literalLexeme, scanRaw_append]
          · split
            · rename_i text s found
              obtain ⟨_, starts, _⟩ := Symbol.longest?_eq_some found
              exact List.prefix_iff_eq_append.mp starts
            · simp

/-- No token is empty. -/
theorem lexeme_text_ne_nil (c : Char) (rest : List Char) : (lexeme c rest).text ≠ [] := by
  unfold lexeme
  split
  · simp
  · split
    · rename_i starts
      exact scanNumber_text_ne_nil starts
    · split
      · simp [literalLexeme]
      · split
        · simp [literalLexeme]
        · split
          · simp [literalLexeme]
          · split
            · rename_i text s found
              exact (Symbol.longest?_eq_some found).2.2
            · simp

/-- Every token but the final ones leaves less to come. -/
theorem LexState.remaining_next_lt {s : LexState} (more : s.next.1.kind.isFinal = false) :
    s.next.2.remaining < s.remaining := by
  have whole := congrArg List.length (Trivia.text_append_rest .between s.rest)
  rw [List.length_append] at whole
  unfold next at more ⊢
  simp only at more ⊢
  split
  · rename_i inserted
    simp only [Bool.and_eq_true] at inserted
    simp only [remaining, inserted.2, Bool.toNat_true, Bool.toNat_false]
    omega
  · rename_i noSemi
    rw [if_neg noSemi] at more
    revert more
    split
    · intro more
      split at more <;> simp [TokenKind.isFinal] at more
    · rename_i c rest nonempty
      intro _
      have parts := congrArg List.length (lexeme_append c rest)
      have positive := List.length_pos_iff.mpr (lexeme_text_ne_nil c rest)
      rw [List.length_append, List.length_cons] at parts
      rw [nonempty, List.length_cons] at whole
      simp only [remaining]
      have flag := Bool.toNat_le (lexeme c rest).kind.endsStatement
      omega

/-! ## Token sequences -/

/-- The tokens of a text before its final one, and the final one. -/
structure TokenStream where
  tokens : List Token
  last : Token

/-- Reads tokens up to the final one. -/
def LexState.run (s : LexState) : TokenStream :=
  match _more : s.next.1.kind.isFinal with
  | true => ⟨[], s.next.1⟩
  | false =>
    let stream := s.next.2.run
    ⟨s.next.1 :: stream.tokens, stream.last⟩
termination_by s.remaining
decreasing_by exact remaining_next_lt (by assumption)

/-- The tokens of a text. -/
def tokenize (text : String) : TokenStream :=
  (LexState.start text).run

end PackageLoader
