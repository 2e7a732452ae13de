import PackageLoader.Json.Basic

/-!
Tokens of JSON text, with the faults that `serde_json` tells apart. Strings, numbers and words are
read as far as they go; a token with a fault in it is the last one.
-/
namespace PackageLoader.Json

open Text

/-- A token: punctuation, a string, or any other value without parts. -/
inductive Token where
  | openArray | closeArray | openObject | closeObject | comma | colon
  | string (s : RawString)
  | scalar (t : Tree)

/-- Whether a byte is the code of an ASCII character. -/
def isCode (c : Char) (b : UInt8) : Bool :=
  b.toNat = c.toNat

/-- Blanks, tabs and line ends. -/
def isBlankByte (b : UInt8) : Bool :=
  isCode ' ' b || isCode '\n' b || isCode '\t' b || isCode '\r' b

/-! ## Strings -/

/-- The byte that an escape with one letter stands for. -/
def simpleEscape? (b : UInt8) : Option UInt8 :=
  if isCode '"' b || isCode '\\' b || isCode '/' b then some b
  else if isCode 'b' b then some 0x08
  else if isCode 'f' b then some 0x0C
  else if isCode 'n' b then some 0x0A
  else if isCode 'r' b then some 0x0D
  else if isCode 't' b then some 0x09
  else none

/-- The value of a hexadecimal digit. -/
def hexDigit? (b : UInt8) : Option Nat :=
  let n := b.toNat
  if '0'.toNat ≤ n ∧ n ≤ '9'.toNat then some (n - '0'.toNat)
  else if 'a'.toNat ≤ n ∧ n ≤ 'f'.toNat then some (n - 'a'.toNat + 10)
  else if 'A'.toNat ≤ n ∧ n ≤ 'F'.toNat then some (n - 'A'.toNat + 10)
  else none

/-- The code unit that four hexadecimal digits spell. -/
def codeUnit? (a b c d : UInt8) : Option Nat := do
  let a ← hexDigit? a
  let b ← hexDigit? b
  let c ← hexDigit? c
  let d ← hexDigit? d
  return ((a * 16 + b) * 16 + c) * 16 + d

/-- A string with one more piece in front, and what follows it. -/
def withPiece (piece : Piece) (read : RawString × Bytes) : RawString × Bytes :=
  ({ read.1 with pieces := piece :: read.1.pieces }, read.2)

/-- A string that ends in a fault; nothing is read behind it. -/
def stopString (fault : Fault) : RawString × Bytes :=
  (⟨[], some fault⟩, [])

/-- Reads a string behind its opening quote. -/
def readString : Bytes → RawString × Bytes
  | [] => stopString .cutShort
  | b :: rest =>
    if isCode '"' b then (⟨[], none⟩, rest)
    else if isCode '\\' b then
      match rest with
      | [] => stopString .cutShort
      | e :: rest =>
        if isCode 'u' e then
          match rest with
          | b₁ :: b₂ :: b₃ :: b₄ :: rest =>
            match codeUnit? b₁ b₂ b₃ b₄ with
            | some n => withPiece (.unit n) (readString rest)
            | none => stopString .malformed
          | _ => stopString .cutShort
        else match simpleEscape? e with
          | some c => withPiece (.byte c) (readString rest)
          | none => stopString .malformed
    else if b < 0x20 then stopString .malformed
    else withPiece (.byte b) (readString rest)

theorem readString_length_le (cs : Bytes) : (readString cs).2.length ≤ cs.length := by
  fun_induction readString cs <;>
    simp only [withPiece, stopString, List.length_nil, List.length_cons] at * <;> omega

/-! ## Numbers -/

/-- Whether a byte is a decimal digit. -/
def isDigit (b : UInt8) : Bool :=
  '0'.toNat ≤ b.toNat && b.toNat ≤ '9'.toNat

/-- The digits that come next, and what follows them. -/
def takeDigits (cs : Bytes) : List Nat × Bytes :=
  ((cs.takeWhile isDigit).map fun b => b.toNat - '0'.toNat, cs.dropWhile isDigit)

/-- The number that digits spell. -/
def ofDigits (digits : List Nat) : Nat :=
  digits.foldl (fun n d => n * 10 + d) 0

/-- What follows one of the given marks, if one comes next. -/
def after? (marks : List Char) : Bytes → Option Bytes
  | b :: rest => if marks.any (isCode · b) then some rest else none
  | [] => none

/-- At least one digit. -/
def takeSomeDigits (cs : Bytes) : Except Fault (List Nat × Bytes) :=
  match takeDigits cs with
  | ([], _) => .error (faultAt cs)
  | taken => .ok taken

/-- The fraction of a number, if it has one. -/
def takeFraction (cs : Bytes) : Except Fault (Option (List Nat) × Bytes) :=
  match after? ['.'] cs with
  | none => .ok (none, cs)
  | some rest => do
    let (digits, rest) ← takeSomeDigits rest
    return (some digits, rest)

/-- The exponent of a number, if it has one. -/
def takeExponent (cs : Bytes) : Except Fault (Option Int × Bytes) :=
  match after? ['e', 'E'] cs with
  | none => .ok (none, cs)
  | some rest => do
    let (digits, rest') ← takeSomeDigits ((after? ['+', '-'] rest).getD rest)
    let size : Int := ofDigits digits
    return (some (if rest.head?.any (isCode '-') then -size else size), rest')

/-- Reads a number. No digit may follow a zero in front. -/
def takeNumber (cs : Bytes) : Except Fault (Number × Bytes) := do
  let (whole, rest) ← takeSomeDigits ((after? ['-'] cs).getD cs)
  if whole.head? = some 0 && whole.length ≠ 1 then throw .malformed
  let (fraction?, rest) ← takeFraction rest
  let (exponent?, rest) ← takeExponent rest
  return (⟨(after? ['-'] cs).isSome, whole, fraction?, exponent?⟩, rest)

theorem after?_length {marks : List Char} {cs rest : Bytes} (found : after? marks cs = some rest) :
    rest.length < cs.length := by
  cases cs with
  | nil => cases found
  | cons b tail =>
    simp only [after?] at found
    split at found
    · cases found
      simp
    · cases found

theorem after?_getD_length_le (marks : List Char) (cs : Bytes) :
    ((after? marks cs).getD cs).length ≤ cs.length := by
  cases found : after? marks cs with
  | none => simp
  | some rest => exact Nat.le_of_lt (after?_length found)

theorem takeSomeDigits_length {cs rest : Bytes} {digits : List Nat}
    (taken : takeSomeDigits cs = .ok (digits, rest)) : rest.length < cs.length := by
  have whole := congrArg List.length (List.takeWhile_append_dropWhile (p := isDigit) (l := cs))
  simp only [List.length_append] at whole
  unfold takeSomeDigits at taken
  split at taken
  · cases taken
  · rename_i some
    cases taken
    have positive : 0 < (takeDigits cs).1.length :=
      List.length_pos_iff.mpr fun empty => some (takeDigits cs).2 (Prod.ext empty rfl)
    simp only [takeDigits, List.length_map] at positive ⊢
    omega

theorem takeFraction_length_le {cs rest : Bytes} {fraction? : Option (List Nat)}
    (taken : takeFraction cs = .ok (fraction?, rest)) : rest.length ≤ cs.length := by
  unfold takeFraction at taken
  split at taken
  · cases taken
    exact Nat.le_refl _
  · rename_i behind found
    have shorter := after?_length found
    cases digits : takeSomeDigits behind with
    | error fault => simp [digits, bind, Except.bind] at taken
    | ok pair =>
      have := takeSomeDigits_length digits
      simp only [digits, bind, Except.bind, pure, Except.pure] at taken
      cases taken
      omega

theorem takeExponent_length_le {cs rest : Bytes} {exponent? : Option Int}
    (taken : takeExponent cs = .ok (exponent?, rest)) : rest.length ≤ cs.length := by
  unfold takeExponent at taken
  split at taken
  · cases taken
    exact Nat.le_refl _
  · rename_i behind found
    have shorter := after?_length found
    have signed := after?_getD_length_le ['+', '-'] behind
    cases digits : takeSomeDigits ((after? ['+', '-'] behind).getD behind) with
    | error fault => simp [digits, bind, Except.bind] at taken
    | ok pair =>
      have := takeSomeDigits_length digits
      simp only [digits, bind, Except.bind, pure, Except.pure] at taken
      cases taken
      omega

/-- A number takes at least one byte. -/
theorem takeNumber_length {cs rest : Bytes} {n : Number} (taken : takeNumber cs = .ok (n, rest)) :
    rest.length < cs.length := by
  have signed := after?_getD_length_le ['-'] cs
  unfold takeNumber at taken
  cases first : takeSomeDigits ((after? ['-'] cs).getD cs) with
  | error fault => simp [first, bind, Except.bind] at taken
  | ok whole =>
    have shorter := takeSomeDigits_length first
    simp only [first, bind, Except.bind] at taken
    split at taken
    · cases taken
    · cases second : takeFraction whole.2 with
      | error fault => simp [second] at taken
      | ok fraction =>
        have := takeFraction_length_le second
        simp only [second, pure, Except.pure] at taken
        cases third : takeExponent fraction.2 with
        | error fault => simp [third] at taken
        | ok exponent =>
          have := takeExponent_length_le third
          simp only [third] at taken
          cases taken
          omega

/-! ## Words -/

/-- What follows the given word; a text that ends within it is cut short. -/
def takeWord : List Char → Bytes → Except Fault Bytes
  | [], cs => .ok cs
  | _ :: _, [] => .error .cutShort
  | c :: word, b :: cs => if isCode c b then takeWord word cs else .error .malformed

theorem takeWord_length_le {word : List Char} {cs rest : Bytes}
    (taken : takeWord word cs = .ok rest) : rest.length ≤ cs.length := by
  induction word generalizing cs with
  | nil =>
    cases taken
    exact Nat.le_refl _
  | cons c word ih =>
    cases cs with
    | nil => cases taken
    | cons b cs =>
      simp only [takeWord] at taken
      split at taken
      · exact Nat.le_succ_of_le (ih taken)
      · cases taken

/-! ## Tokens -/

/-- A token, unless there is a fault in it, and what follows it. -/
def scalarOr (broken : Fault → Tree) : Except Fault (Tree × Bytes) → Token × Bytes
  | .ok (tree, rest) => (.scalar tree, rest)
  | .error fault => (.scalar (broken fault), [])

/-- The punctuation that a byte is. -/
def punctuation? (b : UInt8) : Option Token :=
  if isCode '[' b then some .openArray
  else if isCode ']' b then some .closeArray
  else if isCode '\x7b' b then some .openObject
  else if isCode '\x7d' b then some .closeObject
  else if isCode ',' b then some .comma
  else if isCode ':' b then some .colon
  else none

/-- Reads the rest of a word. -/
def readWord (letters : String) (tree : Tree) (cs : Bytes) : Token × Bytes :=
  scalarOr .broken ((takeWord letters.toList cs).map (tree, ·))

/-- Reads a number. -/
def readNumber (cs : Bytes) : Token × Bytes :=
  scalarOr .brokenNumber ((takeNumber cs).map fun taken => (.number taken.1, taken.2))

/-- Reads the token that starts with the given byte. -/
def readToken (b : UInt8) (rest : Bytes) : Token × Bytes :=
  match punctuation? b with
  | some token => (token, rest)
  | none =>
    if isCode '"' b then (.string (readString rest).1, (readString rest).2)
    else if isCode '-' b || isDigit b then readNumber (b :: rest)
    else if isCode 'n' b then readWord "ull" .null rest
    else if isCode 't' b then readWord "rue" (.boolean true) rest
    else if isCode 'f' b then readWord "alse" (.boolean false) rest
    else (.scalar (.broken .malformed), [])

theorem scalarOr_length_le {broken : Fault → Tree} {read : Except Fault (Tree × Bytes)} {bound : Nat}
    (bounded : ∀ tree rest, read = .ok (tree, rest) → rest.length ≤ bound) :
    (scalarOr broken read).2.length ≤ bound := by
  cases read with
  | error fault => exact Nat.zero_le _
  | ok pair => exact bounded pair.1 pair.2 rfl

theorem readWord_length_le (letters : String) (tree : Tree) (cs : Bytes) :
    (readWord letters tree cs).2.length ≤ cs.length := by
  refine scalarOr_length_le fun t after read => ?_
  cases taken : takeWord letters.toList cs with
  | error fault => simp [taken, Except.map] at read
  | ok left =>
    simp only [taken, Except.map, Except.ok.injEq, Prod.mk.injEq] at read
    exact read.2 ▸ takeWord_length_le taken

theorem readNumber_length_le (b : UInt8) (cs : Bytes) :
    (readNumber (b :: cs)).2.length ≤ cs.length := by
  refine scalarOr_length_le fun t after read => ?_
  cases taken : takeNumber (b :: cs) with
  | error fault => simp [taken, Except.map] at read
  | ok pair =>
    simp only [taken, Except.map, Except.ok.injEq, Prod.mk.injEq] at read
    have shorter := takeNumber_length taken
    simp only [List.length_cons] at shorter
    rw [← read.2]
    omega

theorem readToken_length_le (b : UInt8) (rest : Bytes) :
    (readToken b rest).2.length ≤ rest.length := by
  unfold readToken
  split
  · exact Nat.le_refl _
  split
  · exact readString_length_le rest
  split
  · exact readNumber_length_le b rest
  split
  · exact readWord_length_le ..
  split
  · exact readWord_length_le ..
  split
  · exact readWord_length_le ..
  · exact Nat.zero_le _

/-- The tokens of a text. -/
def tokens : Bytes → List Token
  | [] => []
  | b :: rest =>
    if isBlankByte b then tokens rest
    else
      have := readToken_length_le b rest
      (readToken b rest).1 :: tokens (readToken b rest).2
termination_by cs => cs.length
decreasing_by all_goals simp only [List.length_cons]; omega

end PackageLoader.Json
