import PackageLoader.Text.CharRanges

/-!
Character classes of identifiers, blanks and printed text. ASCII characters are classified
directly and all others by their tables, so an ASCII text never consults a table.
-/
namespace PackageLoader.Text

/-- `is_alphabetic`: a letter has the Alphabetic property. -/
def isLetter (c : Char) : Bool :=
  if c.toNat < 0x80 then c.isAlpha else letterRanges.covers c

/-- `is_alphanumeric`: a word character is a letter or a numeral of any kind, such as a digit or a
fraction. -/
def isWordChar (c : Char) : Bool :=
  if c.toNat < 0x80 then c.isAlphanum else letterRanges.covers c || numeralRanges.covers c

/-- `is_whitespace`: a blank has the White_Space property. -/
def isBlank (c : Char) : Bool :=
  let n := c.toNat
  (0x9 ≤ n && n ≤ 0xD) || n == 0x20 || n == 0x85 || n == 0xA0 || n == 0x1680 ||
    (0x2000 ≤ n && n ≤ 0x200A) || n == 0x2028 || n == 0x2029 || n == 0x202F || n == 0x205F ||
    n == 0x3000

/-- A combining character extends the grapheme before it and has no form of its own. -/
def isCombining (c : Char) : Bool :=
  0x80 ≤ c.toNat && combiningRanges.covers c

/-- A printable character is written as itself. The space is the one printable separator. -/
def isPrintable (c : Char) : Bool :=
  if c.toNat < 0x80 then 0x20 ≤ c.toNat && c.toNat < 0x7F else !unprintableRanges.covers c

/-- Drops the blanks at the front. -/
def trimFront (cs : List Char) : List Char :=
  cs.dropWhile isBlank

/-- Drops the blanks at both ends. -/
def trimBlanks (cs : List Char) : List Char :=
  (trimFront (trimFront cs).reverse).reverse

/-- `trim`: the text without the blanks at both ends. -/
def trimmed (s : String) : String :=
  String.ofList (trimBlanks s.toList)

/-- `split_whitespace`: the blank-separated words, in order. -/
def words (cs : List Char) : List (List Char) :=
  (cs.splitBy fun a b => isBlank a == isBlank b).filter fun run => !run.any isBlank

end PackageLoader.Text
