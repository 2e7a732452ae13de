import PackageLoader.Source.File
import PackageLoader.Token.Lexer

/-!
File headers: the package clause of a source file and the import declarations behind it. Reading
stops at the first error and keeps what was complete before it. Text behind the imports is never
looked at.
-/
namespace PackageLoader

open Text

/-! ## Errors -/

/-- What the header needs where something else stands. -/
inductive Wanted where
  | packageWord
  | packageName
  | separator
  | importPath
  | closingParen
  deriving DecidableEq, Repr

/-- How a need is worded. -/
def Wanted.describe : Wanted → String
  | packageWord => "'package'"
  | packageName => "'IDENT'"
  | separator => "';'"
  | importPath => "import path"
  | closingParen => "')'"

/-- `SyntaxError`: why a header is not well-formed. -/
inductive HeaderError where
  | unexpected (wanted : Wanted) (found : Token)
  | invalidPath (literal : String) (place : Span)
  deriving DecidableEq, Repr

namespace HeaderError

/-- The token at fault. -/
def span : HeaderError → Span
  | unexpected _ found => found.span
  | invalidPath _ place => place

/-- The wording of an error. -/
def message : HeaderError → String
  | unexpected wanted found => "expected " ++ wanted.describe ++ ", found " ++ found.describe
  | invalidPath literal _ => "invalid import path: " ++ literal

/-- `SyntaxError::position`: where an error is in its file. -/
def position (error : HeaderError) (file : SourceFile) : String :=
  file.location error.span.start

end HeaderError

/-! ## Headers -/

/-- The package clause. Its span goes from the keyword to the name. -/
structure PackageClause where
  name : String
  span : Span
  deriving DecidableEq, Repr

/-- One imported path, with the local name or dot in front of it if there is one. -/
structure ImportSpec where
  alias? : Option String
  path : String
  span : Span
  deriving DecidableEq, Repr

/-- A package clause and the imports behind it. -/
structure FileHeader where
  package : PackageClause
  imports : List ImportSpec
  deriving DecidableEq, Repr

/-- How far to read. -/
inductive HeaderMode where
  | clauseOnly
  | withImports
  deriving DecidableEq, Repr

/-- `Parsed`: what reading a header gave. The header is missing only if the package clause is at
fault. -/
structure HeaderReading where
  header? : Option FileHeader
  error? : Option HeaderError
  deriving DecidableEq, Repr

/-- `Parsed::package_name`: the name in the package clause. -/
def HeaderReading.packageName? (reading : HeaderReading) : Option String :=
  reading.header?.map (·.package.name)

/-! ## Import paths -/

/-- The text between the quotes of a literal, with escapes left as they are. -/
def unquote (literal : String) : String :=
  match literal.toList with
  | _ :: c :: rest => String.ofList (c :: rest).dropLast
  | _ => literal

/-- Visible ASCII characters that no import path may hold. -/
def illegalInPath : List Char :=
  "!\"#$%&'()*,:;<=>?[\\]^\x7b|\x7d\x60".toList

/-- A path character is a visible one: in ASCII not among the illegal ones, elsewhere neither a
blank nor the replacement character. -/
def isPathChar (c : Char) : Bool :=
  if c.toNat < 0x80 then 0x21 ≤ c.toNat && c.toNat ≤ 0x7E && !illegalInPath.contains c
  else !isBlank c && c ≠ '\uFFFD'

/-- `is_valid_import`: an import path is a non-empty run of path characters. -/
def isImportPath (path : String) : Bool :=
  !path.toList.isEmpty && path.toList.all isPathChar

/-! ## Reading -/

section Reading

variable (last : Token)

/-- The token at the front; behind all others stands the final one. -/
def currentToken (ts : List Token) : Token :=
  ts.headD last

/-- `Parser::unexpected`: the error of finding the current token where something else is wanted. -/
def unexpectedAt (wanted : Wanted) (ts : List Token) : HeaderError :=
  .unexpected wanted (currentToken last ts)

/-- `Parser::expect`: reads one token of the given kind. -/
def readKind (kind : TokenKind) (wanted : Wanted) :
    List Token → Except HeaderError (Span × List Token)
  | [] => .error (.unexpected wanted last)
  | t :: rest => if t.kind = kind then .ok (t.span, rest) else .error (.unexpected wanted t)

/-- `Parser::parse_package_clause`: reads the package clause and the separator behind it. -/
def readPackageClause (ts : List Token) : Except HeaderError (PackageClause × List Token) := do
  let (start, ts) ← readKind last (.keyword .package) .packageWord ts
  match ts with
  | ⟨.ident name, place⟩ :: rest =>
    let (_, rest) ← readKind last .semi .separator rest
    .ok (⟨name, start.through place⟩, rest)
  | ts => .error (unexpectedAt last .packageName ts)

/-- Takes the local name or dot in front of an import path, if there is one. -/
def takeAlias : List Token → Option (String × Span) × List Token
  | ⟨.ident name, place⟩ :: rest => (some (name, place), rest)
  | ⟨.symbol .dot, place⟩ :: rest => (some (".", place), rest)
  | ts => (none, ts)

/-- `Parser::parse_import_spec`: reads an import path with the name in front of it. -/
def readImportSpec (ts : List Token) : Except HeaderError (ImportSpec × List Token) :=
  let (named, ts) := takeAlias ts
  match ts with
  | ⟨.literal .string literal, place⟩ :: rest =>
    let start := (named.map (·.2)).getD place
    let path := unquote literal
    if isImportPath path then .ok (⟨named.map (·.1), path, start.through place⟩, rest)
    else .error (.invalidPath literal place)
  | ts => .error (unexpectedAt last .importPath ts)

theorem takeAlias_length_le (ts : List Token) : (takeAlias ts).2.length ≤ ts.length := by
  unfold takeAlias
  split <;> simp

theorem length_lt_of_readImportSpec {ts rest : List Token} {spec : ImportSpec}
    (ran : readImportSpec last ts = .ok (spec, rest)) : rest.length < ts.length := by
  have shorter := takeAlias_length_le ts
  unfold readImportSpec at ran
  split at ran
  rename_i named after taken
  rw [taken] at shorter
  simp only at ran shorter
  split at ran
  · split at ran
    · simp only [Except.ok.injEq, Prod.mk.injEq] at ran
      rw [← ran.2]
      exact Nat.lt_of_lt_of_le (Nat.lt_succ_self _) shorter
    · contradiction
  · contradiction

theorem length_lt_of_readKind {kind : TokenKind} {wanted : Wanted} {ts rest : List Token}
    {place : Span} (ran : readKind last kind wanted ts = .ok (place, rest)) :
    rest.length < ts.length := by
  unfold readKind at ran
  split at ran
  · contradiction
  · split at ran
    · simp only [Except.ok.injEq, Prod.mk.injEq] at ran
      rw [← ran.2]
      exact Nat.lt_succ_self _
    · contradiction

/-- Reads the specs of a group up to its closing parenthesis. They are separated by semicolons, and
one more may stand behind the last. Gives the specs that are complete and, if the group is, the
tokens behind it. -/
def readImportGroup (ts : List Token) : List ImportSpec × Except HeaderError (List Token) :=
  match ts with
  | [] => ([], .error (.unexpected .closingParen last))
  | t :: rest =>
    if t.kind = .symbol .rparen then ([], .ok rest)
    else match ran : readImportSpec last (t :: rest) with
      | .error e => ([], .error e)
      | .ok (spec, after) =>
        match after with
        | [] => ([spec], .error (.unexpected .separator last))
        | separator :: more =>
          if separator.kind = .semi then
            have := length_lt_of_readImportSpec last ran
            let (specs, result) := readImportGroup more
            (spec :: specs, result)
          else if separator.kind = .symbol .rparen then ([spec], .ok more)
          else ([spec], .error (.unexpected .separator separator))
termination_by ts.length
decreasing_by simp only [List.length_cons] at *; omega

/-- Reads what follows the word `import`: a group or a single spec. -/
def readImportDecl (ts : List Token) : List ImportSpec × Except HeaderError (List Token) :=
  match ts with
  | ⟨.symbol .lparen, _⟩ :: rest => readImportGroup last rest
  | ts =>
    match readImportSpec last ts with
    | .error e => ([], .error e)
    | .ok (spec, rest) => ([spec], .ok rest)

theorem length_lt_of_readImportGroup {ts rest : List Token} {specs : List ImportSpec}
    (ran : readImportGroup last ts = (specs, .ok rest)) : rest.length < ts.length := by
  fun_induction readImportGroup last ts generalizing specs with
  | case1 => simp at ran
  | case2 => simp_all
  | case3 => simp at ran
  | case4 => simp at ran
  | case5 t more _ spec separator _ spec_ok _ shorter specs result inner _ ih =>
    simp only [Prod.mk.injEq] at ran
    rw [ran.2] at inner
    have := ih inner
    simp only [List.length_cons] at shorter ⊢
    omega
  | case6 t more _ spec separator after spec_ok =>
    have shorter := length_lt_of_readImportSpec last spec_ok
    simp only [Prod.mk.injEq, Except.ok.injEq] at ran
    rw [← ran.2]
    simp only [List.length_cons] at shorter ⊢
    omega
  | case7 => simp at ran

theorem length_lt_of_readImportDecl {ts rest : List Token} {specs : List ImportSpec}
    (ran : readImportDecl last ts = (specs, .ok rest)) : rest.length < ts.length := by
  unfold readImportDecl at ran
  split at ran
  · have := length_lt_of_readImportGroup last ran
    simp only [List.length_cons]
    omega
  · split at ran
    · simp at ran
    · rename_i found
      simp only [Prod.mk.injEq, Except.ok.injEq] at ran
      rw [← ran.2]
      exact length_lt_of_readImportSpec last found

/-- `Parser::parse_import_decls`: reads every import declaration at the front. Gives the specs that
are complete and the error that ended the reading, if one did. -/
def readImports (ts : List Token) : List ImportSpec × Option HeaderError :=
  match ts with
  | [] => ([], none)
  | t :: rest =>
    if t.kind = .keyword .import_ then
      match ran : readImportDecl last rest with
      | (specs, .error e) => (specs, some e)
      | (specs, .ok after) =>
        match done : readKind last .semi .separator after with
        | .error e => (specs, some e)
        | .ok (_, more) =>
          have := length_lt_of_readImportDecl last ran
          have := length_lt_of_readKind last done
          let (others, error) := readImports more
          (specs ++ others, error)
    else ([], none)
termination_by ts.length
decreasing_by simp only [List.length_cons]; omega

end Reading

/-- Reads the header of a token sequence. -/
def readHeader (mode : HeaderMode) (stream : TokenStream) : HeaderReading :=
  match readPackageClause stream.last stream.tokens with
  | .error e => ⟨none, some e⟩
  | .ok (package, rest) =>
    match mode with
    | .clauseOnly => ⟨some ⟨package, []⟩, none⟩
    | .withImports =>
      let (imports, error) := readImports stream.last rest
      ⟨some ⟨package, imports⟩, error⟩

/-- `parse_header`: reads the header of a source text. -/
def parseHeader (mode : HeaderMode) (text : String) : HeaderReading :=
  readHeader mode (tokenize text)

end PackageLoader
