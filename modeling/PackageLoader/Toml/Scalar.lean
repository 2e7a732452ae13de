import PackageLoader.Toml.Layout

/-!
Reading TOML keys and scalars from their source form, by the grammar of TOML 1.1 and with the
leniency of the `toml` library where underscores stand in numbers. Everything that does not follow
the format to the letter is malformed on the line where the fault is.
-/
namespace PackageLoader.Toml

/-! ## Strings -/

/-- The value of a hexadecimal digit. -/
def hexDigit? (c : Char) : Option Nat :=
  if c.isDigit then some (c.toNat - '0'.toNat)
  else if 'a' ≤ c ∧ c ≤ 'f' then some (c.toNat - 'a'.toNat + 10)
  else if 'A' ≤ c ∧ c ≤ 'F' then some (c.toNat - 'A'.toNat + 10)
  else none

/-- The number that hexadecimal digits spell. -/
def hexNumber? (cs : List Char) : Option Nat :=
  cs.foldlM (fun n c => (hexDigit? c).map (n * 16 + ·)) 0

/-- The character with a given code point, if there is one. -/
def charOf? (n : Nat) : Option Char :=
  if n.isValidChar then some (Char.ofNat n) else none

/-- The character that an escape with one letter stands for. -/
def simpleEscape? (c : Char) : Option Char :=
  match c with
  | 'b' => some '\x08'
  | 'e' => some '\x1b'
  | 't' => some '\t'
  | 'n' => some '\n'
  | 'f' => some '\x0c'
  | 'r' => some '\r'
  | '"' => some '"'
  | '\\' => some '\\'
  | _ => none

/-- The number of digits in an escape by code point. -/
def codeDigits? (c : Char) : Option Nat :=
  match c with
  | 'x' => some 2
  | 'u' => some 4
  | 'U' => some 8
  | _ => none

/-- Characters that stand for themselves in strings. -/
def isPlain (c : Char) : Bool :=
  c = '\t' || (0x20 ≤ c.toNat && c.toNat ≠ 0x7F)

/-- Whether a line end stands next, behind nothing but spaces. -/
def lineEndsNext (cs : List Char) : Bool :=
  match cs.dropWhile isSpace with
  | '\n' :: _ | '\r' :: '\n' :: _ => true
  | _ => false

/-- The length of the spaces and line ends that an escaped line end swallows. -/
def foldedLength : List Char → Nat
  | '\r' :: '\n' :: rest => foldedLength rest + 2
  | c :: rest => if isSpace c || c = '\n' then foldedLength rest + 1 else 0
  | [] => 0

/-- Reads the inside of a string. Escapes are read only if the quote allows them, and line ends are
let through only if it spans lines. -/
def readInside (escapes lines : Bool) (line : Nat) (cs : List Char) :
    Except Malformed (List Char) :=
  match cs with
  | [] => .ok []
  | '\r' :: '\n' :: rest =>
    if lines then return '\r' :: '\n' :: (← readInside escapes lines (line + 1) rest)
    else .error line
  | '\n' :: rest =>
    if lines then return '\n' :: (← readInside escapes lines (line + 1) rest) else .error line
  | '\\' :: c :: rest =>
    if !escapes then return '\\' :: (← readInside escapes lines line (c :: rest))
    else match simpleEscape? c, codeDigits? c with
      | some d, _ => return d :: (← readInside escapes lines line rest)
      | none, some count =>
        match (hexNumber? (rest.take count)).bind charOf? with
        | some d =>
          if (rest.take count).length = count then
            return d :: (← readInside escapes lines line (rest.drop count))
          else .error line
        | none => .error line
      | none, none =>
        if lines && lineEndsNext (c :: rest) then
          let skipped := foldedLength (c :: rest)
          readInside escapes lines (line + ((c :: rest).take skipped).count '\n')
            (rest.drop (skipped - 1))
        else .error line
  | c :: rest =>
    if isPlain c && !(escapes && c = '\\') then
      return c :: (← readInside escapes lines line rest)
    else .error line
termination_by cs.length
decreasing_by all_goals simp only [List.length_drop, List.length_cons]; omega

/-- The text without a newline in front, and the number of lines that this passes. -/
def withoutFirstNewline : List Char → List Char × Nat
  | '\n' :: rest | '\r' :: '\n' :: rest => (rest, 1)
  | cs => (cs, 0)

/-- The text without the given quotes at its end. -/
def withoutQuotes? (quotes cs : List Char) : Option (List Char) :=
  if quotes.isSuffixOf cs then some (cs.take (cs.length - quotes.length)) else none

/-- Reads a quoted string. One that is not closed is at fault where its text ends. -/
def readQuoted (quote : Quote) (raw : Raw) : Except Malformed (List Char) :=
  let single (mark : Char) (escapes : Bool) : Except Malformed (List Char) :=
    match withoutQuotes? [mark] (raw.text.drop 1) with
    | some inside => readInside escapes false raw.line inside
    | none => .error raw.line
  let triple (mark : Char) (escapes : Bool) : Except Malformed (List Char) :=
    let (text, passed) := withoutFirstNewline (raw.text.drop 3)
    match withoutQuotes? [mark, mark, mark] text with
    | some inside => readInside escapes true (raw.line + passed) inside
    | none => .error (raw.line + raw.text.count '\n')
  match quote with
  | .basic => single '"' true
  | .literal => single '\'' false
  | .multiBasic => triple '"' true
  | .multiLiteral => triple '\'' false

/-- A key and the line that it is on. -/
structure Key where
  name : String
  line : Nat
  deriving DecidableEq, Repr

/-- Characters of bare keys. -/
def isBareKeyChar (c : Char) : Bool :=
  c.isAlphanum || c = '_' || c = '-'

/-- Reads a simple key. Strings in triple quotes are no keys. -/
def readKey (raw : Raw) : Except Malformed Key := do
  match raw.quote? with
  | none =>
    if raw.text.isEmpty || !raw.text.all isBareKeyChar then .error raw.line
    else .ok ⟨String.ofList raw.text, raw.line⟩
  | some .multiBasic | some .multiLiteral => .error raw.line
  | some quote => .ok ⟨String.ofList (← readQuoted quote raw), raw.line⟩

/-! ## Numbers -/

/-- The number that digits spell in a base. -/
def numberIn (base : Nat) (digits : List Char) : Nat :=
  digits.foldl (fun n c => n * base + (hexDigit? c).getD 0) 0

/-- Whether a character is a digit in a base. -/
def isDigitIn (base : Nat) (c : Char) : Bool :=
  (hexDigit? c).any (· < base)

/-- A number's sign and what follows it. -/
def takeSign : List Char → Bool × List Char
  | '-' :: rest => (true, rest)
  | '+' :: rest => (false, rest)
  | cs => (false, cs)

/-- Drops underscores that stand between two digits each, given whether the first character may have
one behind it even if it is no digit. -/
def dropUnderscores? (isDigit : Char → Bool) : Bool → List Char → Option (List Char)
  | _, [] => some []
  | free, c :: '_' :: d :: rest =>
    if (free && c ≠ '_' || isDigit c) && isDigit d then
      (dropUnderscores? isDigit false (d :: rest)).map (c :: ·)
    else none
  | _, c :: rest =>
    if c = '_' || rest = ['_'] then none else (dropUnderscores? isDigit false rest).map (c :: ·)

/-- The text of a number without its underscores. Each stands between two digits, but one may follow
the first character whatever that is, so that a sign may have one behind it. -/
def withoutUnderscores? (isDigit : Char → Bool) (cs : List Char) : Option (List Char) :=
  dropUnderscores? isDigit true cs

/-- An integer in a base as its digits and sign spell it, if they do. -/
def integerIn? (base : Nat) (cs : List Char) : Option Int :=
  let (negative, digits) := takeSign cs
  if digits.isEmpty || !digits.all (isDigitIn base) then none
  else
    let n : Int := numberIn base digits
    some (if negative then -n else n)

/-- A floating point number as it is written: its sign, digits and power of ten, or a name. -/
inductive Float where
  | number (negative : Bool) (digits : Nat) (exponent : Int)
  | infinity (negative : Bool)
  | nan
  deriving DecidableEq, Repr

/-- Splits a text at the first character of a kind, which is dropped. -/
def splitAtFirst (isMark : Char → Bool) (cs : List Char) : List Char × Option (List Char) :=
  match cs.dropWhile (!isMark ·) with
  | [] => (cs, none)
  | _ :: rest => (cs.takeWhile (!isMark ·), some rest)

/-- Decimal digits, at least one. -/
def readDigits? (cs : List Char) : Option (List Char) :=
  if cs.isEmpty || !cs.all Char.isDigit then none else some cs

/-- The digits in front of the point. A zero in front of others is one too many, unless it has an
underscore in front of itself. -/
def readWhole? (cs : List Char) : Option (List Char) := do
  let digits ← readDigits? (cs.filter (· ≠ '_'))
  if cs.head? = some '0' && digits.length > 1 then none else some digits

/-- Reads a floating point number without its sign: digits, then a fraction or an exponent or
both. -/
def readFloat? (negative : Bool) (cs : List Char) : Option Float := do
  let (mantissa, exponent?) := splitAtFirst (fun c => c = 'e' || c = 'E') cs
  let (whole, fraction?) := splitAtFirst (· = '.') mantissa
  let whole ← readWhole? whole
  let fraction ← match fraction? with
    | none => some []
    | some cs => readDigits? (cs.filter (· ≠ '_'))
  let exponent ← match exponent? with
    | none => some 0
    | some cs =>
      let (down, digits) := takeSign cs
      (readDigits? (digits.filter (· ≠ '_'))).map fun digits =>
        let n : Int := numberIn 10 digits
        if down then -n else n
  some (.number negative (numberIn 10 (whole ++ fraction)) (exponent - fraction.length))

/-! ## Dates and times -/

/-- The number that exactly as many digits spell, and what follows them. -/
def takeNumber? (count : Nat) (cs : List Char) : Option (Nat × List Char) :=
  let digits := cs.take count
  if digits.length = count && digits.all Char.isDigit then
    some (numberIn 10 digits, cs.drop count)
  else none

/-- What follows a character. -/
def after? (c : Char) : List Char → Option (List Char)
  | d :: rest => if c = d then some rest else none
  | [] => none

/-- The number of days in a month. -/
def daysIn (year month : Nat) : Nat :=
  if month = 2 then
    if year % 4 = 0 && (year % 100 ≠ 0 || year % 400 = 0) then 29 else 28
  else if month = 4 || month = 6 || month = 9 || month = 11 then 30
  else 31

/-- Takes a date that the calendar has. -/
def takeDate? (cs : List Char) : Option (List Char) := do
  let (year, cs) ← takeNumber? 4 cs
  let (month, cs) ← takeNumber? 2 (← after? '-' cs)
  let (day, cs) ← takeNumber? 2 (← after? '-' cs)
  if 1 ≤ month ∧ month ≤ 12 ∧ 1 ≤ day ∧ day ≤ daysIn year month then some cs else none

/-- Takes seconds up to a leap second, and any fraction of them. -/
def takeSeconds? (cs : List Char) : Option (List Char) := do
  let (second, cs) ← takeNumber? 2 cs
  if second ≤ 60 then
    match cs with
    | '.' :: rest =>
      if (rest.takeWhile Char.isDigit).isEmpty then none else some (rest.dropWhile Char.isDigit)
    | cs => some cs
  else none

/-- Takes a time of day, with or without seconds. -/
def takeTime? (cs : List Char) : Option (List Char) := do
  let (hour, cs) ← takeNumber? 2 cs
  let (minute, cs) ← takeNumber? 2 (← after? ':' cs)
  if hour ≤ 23 ∧ minute ≤ 59 then
    match cs with
    | ':' :: rest => takeSeconds? rest
    | cs => some cs
  else none

/-- Whether a text is an offset from universal time. -/
def isOffset (cs : List Char) : Bool :=
  match cs with
  | ['Z'] | ['z'] => true
  | c :: rest =>
    (c = '+' || c = '-') && ((do
      let (hour, rest) ← takeNumber? 2 rest
      let (minute, rest) ← takeNumber? 2 (← after? ':' rest)
      if hour ≤ 23 ∧ minute ≤ 59 ∧ rest = [] then some () else none) : Option Unit).isSome
  | [] => false

/-- Whether a text is a date, a time of day, or both with or without an offset. -/
def isDateTime (cs : List Char) : Bool :=
  match takeDate? cs with
  | some [] => true
  | some (c :: rest) =>
    (c = 'T' || c = 't' || c = ' ') && (takeTime? rest).any fun rest =>
      rest.isEmpty || isOffset rest
  | none => takeTime? cs = some []

end PackageLoader.Toml
