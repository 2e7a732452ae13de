/-!
Tokens of TOML text, by the grammar of TOML 1.1 as the `toml` library cuts it. Every token knows
the line that it starts on. Strings are cut out without being read: a string that is never closed
is a token all the same, up to the end of its line or, with triple quotes, of the text.
-/
namespace PackageLoader.Toml

/-- The four ways to quote a string. -/
inductive Quote where
  | basic
  | multiBasic
  | literal
  | multiLiteral
  deriving DecidableEq, Repr

/-- What a token is. -/
inductive Mark where
  | dot | equals | comma | openBracket | closeBracket | openBrace | closeBrace
  | blank | comment | newline
  | quoted (quote : Quote)
  | bare
  deriving DecidableEq, Repr

/-- A piece of the text and the line that it starts on. -/
structure Token where
  mark : Mark
  text : List Char
  line : Nat
  deriving DecidableEq, Repr

/-- Spaces and tabs. -/
def isSpace (c : Char) : Bool :=
  c = ' ' || c = '\t'

/-- Characters that end a bare token. Quotes do not, so a forgotten opening quote is noticed where
it should be. -/
def endsBare (c : Char) : Bool :=
  ".=,[]\x7b\x7d \t#\r\n".toList.contains c

/-- The length of the rest of a literal string, its closing quote included. -/
def literalLength : List Char → Nat
  | [] => 0
  | '\'' :: _ => 1
  | '\n' :: _ => 0
  | _ :: rest => literalLength rest + 1

/-- The length of the rest of a basic string, its closing quote included. A quote or backslash
behind a backslash closes nothing. -/
def basicLength : List Char → Nat
  | [] => 0
  | '"' :: _ => 1
  | '\n' :: _ => 0
  | '\\' :: '\\' :: rest | '\\' :: '"' :: rest => basicLength rest + 2
  | _ :: rest => basicLength rest + 1

/-- How many of the next two characters are the given quote, without a gap. -/
def extraQuotes (quote : Char) (cs : List Char) : Nat :=
  ((cs.take 2).takeWhile (· = quote)).length

/-- The length of the rest of a literal string in triple quotes. Up to two more quotes behind the
closing ones belong to it. -/
def multiLiteralLength : List Char → Nat
  | [] => 0
  | '\'' :: '\'' :: '\'' :: rest => 3 + extraQuotes '\'' rest
  | _ :: rest => multiLiteralLength rest + 1

/-- The length of the rest of a basic string in triple quotes. -/
def multiBasicLength : List Char → Nat
  | [] => 0
  | '"' :: '"' :: '"' :: rest => 3 + extraQuotes '"' rest
  | '\\' :: '\\' :: rest | '\\' :: '"' :: rest => multiBasicLength rest + 2
  | _ :: rest => multiBasicLength rest + 1

/-- What the token is that starts with a character, and how many more characters it takes. -/
def classify (c : Char) (rest : List Char) : Mark × Nat :=
  if c = '.' then (.dot, 0)
  else if c = '=' then (.equals, 0)
  else if c = ',' then (.comma, 0)
  else if c = '[' then (.openBracket, 0)
  else if c = ']' then (.closeBracket, 0)
  else if c = '\x7b' then (.openBrace, 0)
  else if c = '\x7d' then (.closeBrace, 0)
  else if isSpace c then (.blank, (rest.takeWhile isSpace).length)
  else if c = '#' then (.comment, (rest.takeWhile fun d => d ≠ '\r' && d ≠ '\n').length)
  else if c = '\n' then (.newline, 0)
  else if c = '\r' then (.newline, if rest.head? = some '\n' then 1 else 0)
  else if c = '\'' then
    if ['\'', '\''].isPrefixOf rest then
      (.quoted .multiLiteral, 2 + multiLiteralLength (rest.drop 2))
    else (.quoted .literal, literalLength rest)
  else if c = '"' then
    if ['"', '"'].isPrefixOf rest then (.quoted .multiBasic, 2 + multiBasicLength (rest.drop 2))
    else (.quoted .basic, basicLength rest)
  else (.bare, (rest.takeWhile (!endsBare ·)).length)

/-- Cuts a text into tokens, counting lines from the given one. -/
def tokensFrom (line : Nat) : List Char → List Token
  | [] => []
  | c :: rest =>
    let (mark, more) := classify c rest
    let text := c :: rest.take more
    ⟨mark, text, line⟩ :: tokensFrom (line + text.count '\n') (rest.drop more)
termination_by cs => cs.length
decreasing_by simp only [List.length_drop, List.length_cons]; omega

/-- The text without a byte order mark in front. -/
def withoutMark : List Char → List Char
  | '\uFEFF' :: rest => rest
  | cs => cs

/-- The tokens of a text. -/
def tokenize (cs : List Char) : List Token :=
  tokensFrom 1 (withoutMark cs)

/-- The line that a text ends on. -/
def lastLine (cs : List Char) : Nat :=
  cs.count '\n' + 1

end PackageLoader.Toml
