import PackageLoader.Proofs.HeaderReading
import PackageLoader.Proofs.TokensApart

/-! Headers as they are written: a package clause, imports one by one or in groups, and what may stand
behind them. A text is put together from words and the gaps between them, and each part of it gives the
steps of the same part of the grammar, whatever the text goes on with. -/
namespace PackageLoader.HeaderWriting
open ClauseAlone HeaderGrammar HeaderReading StatementEnds Text TokenText TokensApart

/-! ## Texts -/

/-- What is in front of a path, a name or a dot if anything, and the path. -/
abbrev Import := Option String × String

def imported (spec : ImportSpec) : Import :=
  (spec.alias?, spec.path)

/-- White space that ends no line. -/
def Inline (gap : List Char) : Prop :=
  ∀ c ∈ gap, isBlank c = true ∧ c ≠ '\n'

/-- White space and comments that are skipped whatever follows them. -/
def Filler (gap : List Char) : Prop :=
  ∀ rest, Skipped true gap rest

/-- The end of a line or a semicolon, with the white space and comments around it. -/
inductive Separator : List Char → Prop where
  | line {gap : List Char} (filler : Filler gap) (lineEnd : '\n' ∈ gap) : Separator gap
  | semicolon {front gap : List Char} (sameLine : Inline front) (filler : Filler gap) :
      Separator (front ++ ';' :: gap)

/-- A path in double or back quotes. -/
inductive Quoted (path : String) : List Char → Prop where
  | double : Quoted path ('"' :: (path.toList ++ ['"']))
  | back : Quoted path ('\x60' :: (path.toList ++ ['\x60']))

/-- The name or dot in front of a path, if there is one. -/
inductive Front : Option String → List Char → Prop where
  | nothing : Front none []
  | name {name : String} {gap : List Char} (isName : IsName name) (sameLine : Inline gap) :
      Front (some name) (name.toList ++ gap)
  | dot {gap : List Char} (sameLine : Inline gap) : Front (some ".") ('.' :: gap)

/-- An import path in quotes, with what stands in front of it on its line. -/
inductive SpecText : Import → List Char → Prop where
  | path {name? : Option String} {path : String} {front literal : List Char}
      (before : Front name? front) (valid : isImportPath path = true) (quoted : Quoted path literal) :
      SpecText (name?, path) (front ++ literal)

/-- Specs behind each other. What separates two of them may stand behind the last one, too. -/
inductive GroupText : List Import → List Char → Prop where
  | none : GroupText [] []
  | last {i : Import} {spec gap : List Char} (single : SpecText i spec) (sameLine : Inline gap) :
      GroupText [i] (spec ++ gap)
  | more {i : Import} {is : List Import} {spec separator others : List Char} (first : SpecText i spec)
      (separated : Separator separator) (rest : GroupText is others) :
      GroupText (i :: is) (spec ++ (separator ++ others))

/-- A declaration of a single import or of a group in parentheses. -/
inductive DeclText : List Import → List Char → Prop where
  | single {i : Import} {gap spec : List Char} (filler : Filler gap) (apart : gap ≠ [])
      (single : SpecText i spec) : DeclText [i] ("import".toList ++ (gap ++ spec))
  | group {is : List Import} {gap inner list : List Char} (filler : Filler gap)
      (opened : Filler inner) (grouped : GroupText is list) :
      DeclText is ("import".toList ++ (gap ++ '(' :: (inner ++ (list ++ [')']))))

/-- The words that start the other declarations. -/
def otherWords : List Keyword :=
  [.var, .const, .type, .func]

/-- What stands behind the package clause or a declaration, up to the end of the text. -/
inductive BehindText : List Import → List Char → Prop where
  | ended {gap : List Char} (skipped : Skipped true gap []) : BehindText [] gap
  | closed {front gap : List Char} (sameLine : Inline front) (skipped : Skipped true gap []) :
      BehindText [] (front ++ ';' :: gap)
  | other {separator more : List Char} {word : Keyword} (separated : Separator separator)
      (opens : word ∈ otherWords) : BehindText [] (separator ++ (word.text.toList ++ ' ' :: more))
  | decl {is others : List Import} {separator decl behind : List Char}
      (separated : Separator separator) (first : DeclText is decl) (rest : BehindText others behind) :
      BehindText (is ++ others) (separator ++ (decl ++ behind))

/-- A source file whose header has this name and these imports. -/
inductive HeaderText (name : String) (is : List Import) : List Char → Prop where
  | header {front gap behind : List Char} (before : Filler front) (filler : Filler gap)
      (apart : gap ≠ []) (isName : IsName name) (rest : BehindText is behind) :
      HeaderText name is (front ++ ("package".toList ++ (gap ++ (name.toList ++ behind))))

/-- What is skipped in front of a character that ends no line comment is skipped in front of anything. -/
theorem filler_of_skipped {closed : Bool} {gap more : List Char} {c : Char}
    (skipped : Skipped closed gap (c :: more)) (sameLine : c ≠ '\n') : Filler gap := by
  intro rest
  generalize behind : c :: more = cs at skipped
  induction skipped with
  | nothing => exact .nothing
  | blank white _ ih => exact .blank white (ih behind)
  | @line _ _ gap _ oneLine ended _ ih =>
    -- A comment up to the character itself would have gone on with it.
    refine .line oneLine ?_ (ih behind)
    cases gap with
    | nil => exact absurd (ended c (by rw [← behind]; rfl)) sameLine
    | cons d gap => exact ended
  | block inside _ ih => exact .block inside (ih behind)
  | unclosed => cases behind

theorem filler_iff (gap : List Char) :
    Filler gap ↔ (Trivia.skip .between (gap ++ ['.'])).rest = ['.'] := by
  constructor
  · intro filler
    rw [(filler ['.']).skip_append, if_pos rfl, pushAll_eq]
    rfl
  · intro rest
    have skipped : Skipped _ _ _ := skip_found .between (gap ++ ['.'])
    have whole := Trivia.text_append_rest .between (gap ++ ['.'])
    rw [rest] at skipped whole
    rw [List.append_cancel_right whole] at skipped
    exact filler_of_skipped skipped (by decide)

instance (gap : List Char) : Decidable (Filler gap) :=
  decidable_of_iff _ (filler_iff gap).symm

/-! ## Calls -/

/-- The calls from one state on give some tokens, up to another state. -/
inductive Gives : LexState → List Token → LexState → Prop where
  | none {s : LexState} : Gives s [] s
  | more {s stop : LexState} {ts : List Token} (running : s.next.1.kind.isFinal = false)
      (rest : Gives s.next.2 ts stop) : Gives s (s.next.1 :: ts) stop

theorem Gives.append {s middle stop : LexState} {ts us : List Token} (left : Gives s ts middle)
    (right : Gives middle us stop) : Gives s (ts ++ us) stop := by
  induction left with
  | none => exact right
  | more running _ ih => exact .more running (ih right)

theorem Gives.single {s stop : LexState} {t : Token} (next : s.next = (t, stop))
    (running : t.kind.isFinal = false) : Gives s [t] stop := by
  have call : Gives s [s.next.1] s.next.2 := .more (by rwa [next]) .none
  rwa [next] at call

/-- The given tokens and the one behind them are the first ones of the run. -/
theorem Gives.front {s stop : LexState} {ts : List Token} (gives : Gives s ts stop) :
    ts ++ [stop.next.1] <+: s.run.tokens ++ [s.run.last] := by
  induction gives with
  | @none s =>
    cases final : s.next.1.kind.isFinal with
    | true => exact run_final final ▸ List.prefix_rfl
    | false =>
      rw [run_running final]
      exact List.prefix_append [s.next.1] _
  | more running _ ih =>
    rw [run_running running]
    exact List.cons_prefix_cons.mpr ⟨rfl, ih⟩

section Calls

variable {s : LexState} {ends : Bool} {gap rest : List Char}

/-- A token at the front of a text is given in front of the rest. -/
theorem starts_gives {kind : TokenKind} {text : List Char} (starts : Starts kind text rest)
    (running : kind.isFinal = false) (before : Before ends (text ++ rest) s) :
    ∃ place stop, Gives s [⟨kind, place⟩] stop ∧ Before kind.endsStatement rest stop := by
  obtain ⟨place, offset, next⟩ := starts.next before
  exact ⟨place, _, .single next running, before_here offset rest _⟩

theorem inline_filler (sameLine : Inline gap) : Filler gap := by
  intro rest
  induction gap with
  | nil => exact .nothing
  | cons c gap ih =>
    obtain ⟨own, others⟩ := List.forall_mem_cons.mp sameLine
    exact .blank own.1 (ih others)

theorem before_inline (before : Before ends (gap ++ rest) s) (sameLine : Inline gap) :
    Before ends rest s :=
  before.skipped (inline_filler sameLine rest) fun _ newline => (sameLine _ newline).2 rfl

theorem before_filler (before : Before false (gap ++ rest) s) (filler : Filler gap) :
    Before false rest s :=
  before.skipped (filler rest) nofun

/-- No white space or comment is at the front of the text. -/
def Solid (cs : List Char) : Prop :=
  Trivia.skip .between cs = ⟨[], false, true, cs⟩

/-- Where a statement ends, a semicolon is given in front of what is not skipped. -/
theorem ended_gives (before : Before true (gap ++ rest) s) (skipped : Skipped true gap rest)
    (solid : Solid rest) (lineEnd : '\n' ∈ gap ∨ rest = []) :
    ∃ place stop, Gives s [⟨.semi, place⟩] stop ∧ Before false rest stop := by
  obtain ⟨flag, front, found, -⟩ := before
  rw [skipped.skip_append, if_pos rfl, solid, pushAll_eq, pushAll_eq] at found
  have next := next_statementEnd flag (by rw [found]) (by
    rw [found]
    exact lineEnd.imp_left (by simp +contextual))
  rw [found] at next
  exact ⟨_, _, .single next rfl, before_here _ _ _⟩

/-- A semicolon that is written is given in front of anything. -/
theorem starts_semicolon : Starts .semi [';'] rest :=
  starts_found rfl rfl

theorem separator_gives {separator : List Char} (separated : Separator separator) (solid : Solid rest)
    (before : Before true (separator ++ rest) s) :
    ∃ place stop, Gives s [⟨.semi, place⟩] stop ∧ Before false rest stop := by
  cases separated with
  | line filler lineEnd => exact ended_gives before (filler rest) solid (.inl lineEnd)
  | semicolon sameLine filler =>
    rw [List.append_assoc] at before
    obtain ⟨place, stop, gives, behind⟩ :=
      starts_gives starts_semicolon rfl (before_inline before sameLine)
    exact ⟨place, stop, gives, before_filler behind filler⟩

end Calls

/-! ## Words and literals -/

section Words

variable {rest : List Char}

theorem starts_name {name : String} (isName : IsName name)
    (ends : ∀ d ∈ rest.head?, isIdentPart d = false) : Starts (.ident name) name.toList rest := by
  obtain ⟨noKeyword, c, tail, spelled, start, parts⟩ := isName
  have kind : wordKind (String.ofList (c :: tail)) = .ident name := by
    rw [← spelled, String.ofList_toList, wordKind, noKeyword]
  rw [spelled, ← kind]
  exact starts_word start parts ends

theorem starts_keyword (word : Keyword) (ends : ∀ d ∈ rest.head?, isIdentPart d = false) :
    Starts (.keyword word) word.text.toList rest := by
  have kind : wordKind word.text = .keyword word := by cases word <;> rfl
  have letters : (word.text.toList.head?.any isIdentStart && word.text.toList.all isIdentPart) =
      true := by cases word <;> decide
  rw [← String.ofList_toList (s := word.text)] at kind
  generalize word.text.toList = text at *
  cases text with
  | nil => cases letters
  | cons c tail =>
    simp only [List.head?_cons, Option.any_some, List.all_cons, Bool.and_eq_true,
      List.all_eq_true] at letters
    rw [← kind]
    exact starts_word letters.1 letters.2.2 ends

/-- Gaps start with white space or a comment. -/
theorem gap_head {closed : Bool} {gap : List Char} (skipped : Skipped closed gap rest) :
    ∀ d ∈ gap.head?, isBlank d = true ∨ d = '/' := by
  intro d first
  cases skipped with
  | nothing => cases first
  | blank white =>
    cases first
    exact .inl white
  | line | block | unclosed =>
    cases first
    exact .inr rfl

/-- A gap ends a word. -/
theorem gap_ends {closed : Bool} {gap behind : List Char} (skipped : Skipped closed gap behind)
    (next : gap = [] → ∀ d ∈ rest.head?, isIdentPart d = false) :
    ∀ d ∈ (gap ++ rest).head?, isIdentPart d = false := by
  cases gap with
  | nil => exact next rfl
  | cons c gap =>
    rintro _ ⟨⟩
    rcases gap_head skipped c rfl with white | rfl
    · apply isIdentPart_of_divides
      rw [divides, white, Bool.true_or]
    · decide

theorem parted_inline {gap : List Char} (sameLine : Inline gap) (parted : Parted rest) :
    Parted (gap ++ rest) := by
  cases gap with
  | nil => exact parted
  | cons c gap =>
    rintro _ ⟨⟩
    rw [divides, (sameLine c (List.mem_cons_self ..)).1, Bool.true_or]

theorem word_ends (parted : Parted rest) : ∀ d ∈ rest.head?, isIdentPart d = false :=
  fun d first => isIdentPart_of_divides (parted d first)

theorem quotes_illegal : ∀ c ∈ ['"', '\\', '\x60', '\n'], isPathChar c = false :=
  List.all_iff_forall_prop.mp (by decide)

theorem ne_of_isPathChar {c d : Char} (valid : isPathChar c = true) (illegal : isPathChar d = false) :
    c ≠ d := by
  rintro rfl
  cases valid.symm.trans illegal

theorem scanQuoted_path {path : List Char} (valid : ∀ c ∈ path, isPathChar c = true) :
    scanQuoted '"' (path ++ '"' :: rest) = ⟨path ++ ['"'], true, rest⟩ := by
  induction path with
  | nil => exact scanQuoted_closing (by decide) (by decide) rest
  | cons c path ih =>
    obtain ⟨own, others⟩ := List.forall_mem_cons.mp valid
    have apart (d : Char) (illegal : d ∈ ['"', '\\', '\x60', '\n']) : c ≠ d :=
      ne_of_isPathChar own (quotes_illegal d illegal)
    rw [List.cons_append, scanQuoted_plain (apart _ (by simp)) (apart _ (by simp)) (apart _ (by simp)),
      ih others]
    rfl

theorem scanRaw_path {path : List Char} (valid : ∀ c ∈ path, isPathChar c = true) :
    scanRaw (path ++ '\x60' :: rest) = ⟨path ++ ['\x60'], true, rest⟩ := by
  induction path with
  | nil => exact if_pos rfl
  | cons c path ih =>
    obtain ⟨own, others⟩ := List.forall_mem_cons.mp valid
    have apart : c ≠ '\x60' := ne_of_isPathChar own (quotes_illegal _ (by simp))
    have step : scanRaw (c :: (path ++ '\x60' :: rest)) =
        (scanRaw (path ++ '\x60' :: rest)).push c := if_neg apart
    rw [List.cons_append, step, ih others]
    rfl

theorem unquote_quoted {path : List Char} (visible : path ≠ []) (quote stop : Char) :
    unquote (String.ofList (quote :: (path ++ [stop]))) = String.ofList path := by
  cases path with
  | nil => exact absurd rfl visible
  | cons c path =>
    rw [unquote, String.toList_ofList]
    show String.ofList ((c :: path) ++ [stop]).dropLast = _
    rw [List.dropLast_concat]

/-- A quoted path is one literal with the path between its quotes. -/
theorem starts_quoted {path : String} {literal : List Char} (valid : isImportPath path = true)
    (quoted : Quoted path literal) : Starts (.literal .string (String.ofList literal)) literal rest ∧
      unquote (String.ofList literal) = path := by
  simp only [isImportPath, Bool.and_eq_true, Bool.not_eq_true', List.isEmpty_eq_false_iff,
    List.all_eq_true] at valid
  obtain ⟨visible, legal⟩ := valid
  have between (quote stop : Char) := unquote_quoted visible quote stop
  rw [String.ofList_toList] at between
  cases quoted with
  | double =>
    refine ⟨starts_literal (by simp) ?_, between _ _⟩
    rw [lexeme_string, List.append_assoc]
    exact congrArg _ (scanQuoted_path legal)
  | back =>
    refine ⟨starts_literal (by simp) ?_, between _ _⟩
    rw [lexeme_raw, List.append_assoc]
    exact congrArg _ (scanRaw_path legal)

end Words

/-! ## Parts of a header -/

section Parts

variable {s : LexState} {ends : Bool} {rest : List Char}

theorem quoted_parted {path : String} {literal : List Char} (quoted : Quoted path literal) :
    Parted (literal ++ rest) := by
  cases quoted <;> (rintro _ ⟨⟩; decide)

theorem front_gives {name? : Option String} {front : List Char} (written : Front name? front)
    (parted : Parted rest) (before : Before ends (front ++ rest) s) :
    ∃ steps named, Named steps named ∧ named.map (·.1) = name? ∧
      ∃ stop flag, Gives s (tokens steps) stop ∧ Before flag rest stop := by
  cases written with
  | nothing => exact ⟨[], none, .nothing, rfl, s, ends, .none, before⟩
  | name isName sameLine =>
    rw [List.append_assoc] at before
    obtain ⟨place, stop, gives, behind⟩ :=
      starts_gives (starts_name isName (word_ends (parted_inline sameLine parted))) rfl before
    exact ⟨_, _, @Named.name _ place, rfl, stop, true, gives, before_inline behind sameLine⟩
  | dot sameLine =>
    obtain ⟨place, stop, gives, behind⟩ :=
      starts_gives (starts_symbol .dot (parted_inline sameLine parted)) rfl before
    exact ⟨_, _, @Named.dot place, rfl, stop, false, gives, before_inline behind sameLine⟩

theorem spec_gives {i : Import} {text : List Char} (written : SpecText i text)
    (before : Before ends (text ++ rest) s) : ∃ steps stop, Spec steps ∧
      (specs steps).map imported = [i] ∧ Gives s (tokens steps) stop ∧ Before true rest stop := by
  obtain ⟨front, valid, quoted⟩ := written
  obtain ⟨starts, between⟩ := starts_quoted valid quoted
  rw [List.append_assoc] at before
  obtain ⟨steps, named, names, same, middle, flag, first, inner⟩ :=
    front_gives front (quoted_parted quoted) before
  obtain ⟨place, stop, last, behind⟩ := starts_gives starts rfl inner
  refine ⟨steps ++ [pathStep named _ place], stop, .path names (by rwa [between]), ?_, ?_, behind⟩
  · have quiet : specs steps = [] := by cases names <;> rfl
    rw [specs_append, quiet, ← same, ← between]
    rfl
  · rw [tokens_append]
    exact first.append last

theorem spec_solid {i : Import} {text : List Char} (written : SpecText i text) :
    Solid (text ++ rest) := by
  obtain ⟨front, valid, quoted⟩ := written
  have parted := @quoted_parted rest _ _ quoted
  rw [List.append_assoc]
  cases front with
  | nothing => exact (starts_quoted valid quoted).1.bare
  | name isName sameLine =>
    rw [List.append_assoc]
    exact (starts_name isName (word_ends (parted_inline sameLine parted))).bare
  | dot sameLine => exact (starts_symbol .dot (parted_inline sameLine parted)).bare

theorem starts_rparen : Starts (.symbol .rparen) [')'] rest :=
  starts_found rfl rfl

theorem starts_lparen : Starts (.symbol .lparen) ['('] rest :=
  starts_found rfl rfl

theorem group_solid {is : List Import} {list : List Char} (written : GroupText is list) :
    Solid (list ++ ')' :: rest) := by
  cases written with
  | none => exact starts_rparen.bare
  | last single =>
    rw [List.append_assoc]
    exact spec_solid single
  | more first =>
    rw [List.append_assoc]
    exact spec_solid first

theorem group_gives {is : List Import} {list : List Char} (written : GroupText is list)
    (before : Before false (list ++ ')' :: rest) s) : ∃ steps stop flag, Specs steps ∧
      (specs steps).map imported = is ∧ Gives s (tokens steps) stop ∧
      Before flag (')' :: rest) stop := by
  induction written generalizing s with
  | none => exact ⟨[], s, false, .none, rfl, .none, before⟩
  | last single sameLine =>
    rw [List.append_assoc] at before
    obtain ⟨steps, stop, spec, same, gives, behind⟩ := spec_gives single before
    exact ⟨steps, stop, true, .last spec, same, gives, before_inline behind sameLine⟩
  | more first separated others ih =>
    rw [List.append_assoc, List.append_assoc] at before
    obtain ⟨steps, middle, spec, same, gives, inner⟩ := spec_gives first before
    obtain ⟨place, start, semi, next⟩ := separator_gives separated (group_solid others) inner
    obtain ⟨more, stop, flag, list, alike, given, behind⟩ := ih next
    refine ⟨_, stop, flag, @Specs.more _ _ place spec list, ?_, ?_, behind⟩
    · rw [specs_append, List.map_append, same, ← alike]
      rfl
    · rw [tokens_append]
      exact gives.append (semi.append given)

theorem import_starts {gap : List Char} (filler : Filler gap)
    (next : gap = [] → ∀ d ∈ rest.head?, isIdentPart d = false) :
    Starts (.keyword .import_) "import".toList (gap ++ rest) :=
  starts_keyword .import_ (gap_ends (filler []) next)

theorem decl_solid {is : List Import} {decl : List Char} (written : DeclText is decl) :
    Solid (decl ++ rest) := by
  cases written with
  | single filler apart =>
    rw [List.append_assoc, List.append_assoc]
    exact (import_starts filler fun none => absurd none apart).bare
  | group filler =>
    rw [List.append_assoc, List.append_assoc]
    exact (import_starts filler fun _ => by rintro _ ⟨⟩; decide).bare

theorem decl_gives {is : List Import} {decl : List Char} (written : DeclText is decl)
    (before : Before false (decl ++ rest) s) : ∃ steps stop,
      (∀ place, Decl (steps ++ [word .semi place])) ∧ (specs steps).map imported = is ∧
      Gives s (tokens steps) stop ∧ Before true rest stop := by
  cases written with
  | single filler apart written =>
    rw [List.append_assoc, List.append_assoc] at before
    obtain ⟨start, middle, first, gap⟩ :=
      starts_gives (import_starts filler fun none => absurd none apart) rfl before
    obtain ⟨steps, stop, spec, same, gives, behind⟩ := spec_gives written (before_filler gap filler)
    exact ⟨word _ start :: steps, stop, fun _ => .single spec, same, first.append gives, behind⟩
  | group filler opened written =>
    simp only [List.append_assoc, List.cons_append, List.nil_append] at before
    obtain ⟨start, middle, first, gap⟩ :=
      starts_gives (import_starts filler fun _ => by rintro _ ⟨⟩; decide) rfl before
    obtain ⟨opening, inside, second, inner⟩ := starts_gives starts_lparen rfl (before_filler gap filler)
    obtain ⟨steps, last, flag, list, same, gives, tail⟩ := group_gives written (before_filler inner opened)
    obtain ⟨closing, stop, final, behind⟩ := starts_gives starts_rparen rfl tail
    refine ⟨word (.keyword .import_) start :: word (.symbol .lparen) opening ::
      (steps ++ [word (.symbol .rparen) closing]), stop, fun place => ?_, ?_, ?_, behind⟩
    · have whole := @Decl.group steps start opening closing place list
      rwa [List.append_cons] at whole
    · rw [← same]
      simp [specs]
    · rw [tokens_cons, tokens_cons, tokens_append]
      exact first.append (second.append (gives.append final))

theorem separator_ends {separator : List Char} (separated : Separator separator) :
    ∀ d ∈ (separator ++ rest).head?, isIdentPart d = false := by
  cases separated with
  | line filler lineEnd =>
    refine gap_ends (filler []) fun none => ?_
    rw [none] at lineEnd
    cases lineEnd
  | semicolon sameLine =>
    rw [List.append_assoc]
    exact gap_ends (inline_filler sameLine []) fun _ => by rintro _ ⟨⟩; decide

theorem behind_ends {is : List Import} {text : List Char} (written : BehindText is text) :
    ∀ d ∈ text.head?, isIdentPart d = false := by
  cases written with
  | ended skipped =>
    rw [← List.append_nil text]
    exact gap_ends skipped nofun
  | closed sameLine =>
    exact gap_ends (inline_filler sameLine []) fun _ => by rintro _ ⟨⟩; decide
  | other separated | decl separated => exact separator_ends separated

theorem behind_gives {is : List Import} {text : List Char} (written : BehindText is text)
    (before : Before true text s) : ∃ place steps stop, Decls steps ∧
      (specs steps).map imported = is ∧ Gives s (⟨.semi, place⟩ :: tokens steps) stop ∧
      stop.next.1.kind ≠ .keyword .import_ := by
  induction written generalizing s with
  | @ended gap skipped =>
    rw [← List.append_nil gap] at before
    obtain ⟨place, stop, gives, behind⟩ := ended_gives before skipped rfl (.inr rfl)
    exact ⟨place, [], stop, .none, rfl, gives, by rw [next_ended behind]; nofun⟩
  | @closed front gap sameLine skipped =>
    obtain ⟨place, stop, gives, behind⟩ :=
      starts_gives starts_semicolon rfl (before_inline before sameLine)
    rw [← List.append_nil gap] at behind
    have last := next_ended (behind.skipped skipped nofun)
    exact ⟨place, [], stop, .none, rfl, gives, by rw [last]; nofun⟩
  | @other separator more word separated opens =>
    have starts := @starts_keyword (' ' :: more) word (by rintro _ ⟨⟩; decide)
    obtain ⟨place, stop, gives, behind⟩ := separator_gives separated starts.bare before
    obtain ⟨_, _, next⟩ := starts.next behind
    refine ⟨place, [], stop, .none, rfl, gives, ?_⟩
    rw [next]
    rintro ⟨⟩
    exact absurd opens (by decide)
  | decl separated first rest ih =>
    obtain ⟨place, start, semi, inner⟩ := separator_gives separated (decl_solid first) before
    obtain ⟨steps, middle, decl, same, gives, tail⟩ := decl_gives first inner
    obtain ⟨stopped, others, stop, decls, alike, given, last⟩ := ih tail
    refine ⟨place, steps ++ [word .semi stopped] ++ others, stop, .more (decl stopped) decls, ?_, ?_,
      last⟩
    · rw [specs_append, specs_append, List.map_append, List.map_append, same, alike]
      simp [specs]
    · rw [tokens_append, tokens_append, List.append_assoc]
      exact semi.append (gives.append given)

end Parts

/-! ## Headers -/

/-- White space and comments in front of a token are no byte order mark, and neither is the token. -/
theorem filler_unmarked {kind : TokenKind} {gap text rest : List Char} (filler : Filler gap)
    (starts : Starts kind text rest) (sound : isSound kind = true) :
    (gap ++ (text ++ rest)).head? ≠ some '\uFEFF' := by
  cases gap with
  | nil => exact starts.unmarked sound
  | cons c gap =>
    rintro ⟨⟩
    rcases gap_head (filler []) _ rfl with white | slash
    · exact absurd white (by decide)
    · cases slash

/-- A header is read back from every text that it is written as: there is no error, and the package name
and the imports are the written ones, in order. -/
theorem written_header_reads {name : String} {is : List Import} {text : String}
    (written : HeaderText name is text.toList) : ∃ header,
      parseHeader .withImports text = ⟨some header, none⟩ ∧ header.package.name = name ∧
      header.imports.map imported = is := by
  generalize spelled : text.toList = cs at written
  cases written with
  | @header front gap behind before filler apart isName rest =>
    have package := @starts_keyword (gap ++ (name.toList ++ behind)) .package
      (gap_ends (filler []) fun none => absurd none apart)
    have unmarked := filler_unmarked before package rfl
    rw [show Keyword.package.text = "package" from rfl, ← spelled] at unmarked
    have start : Before false text.toList (.start text) := by
      rw [start_unmarked unmarked]
      exact before_here ..
    rw [spelled] at start
    obtain ⟨opened, beside, first, toName⟩ := starts_gives package rfl (before_filler start before)
    obtain ⟨place, inside, second, tail⟩ :=
      starts_gives (starts_name isName (behind_ends rest)) rfl (before_filler toName filler)
    obtain ⟨stopped, steps, stop, decls, same, third, last⟩ := behind_gives rest tail
    have front := (first.append (second.append third)).front
    have header := Header.header (@Clause.clause name opened place stopped) decls last
    have read := (parseHeader_exact text).2.1 _ _ header (by
      rw [tokens_append, tokens_append]
      exact front)
    refine ⟨_, read, rfl, ?_⟩
    rw [specs_append, specs_append, List.map_append, List.map_append, same]
    exact List.append_nil is

/-- A header with comments, both kinds of quotes, a group over several lines and an empty one. -/
def mixedHeader : String :=
  "// p\npackage p // of one letter\n\nimport (\n\t. \"a\" // dot\n\t_ \x60b/c\x60; d \"e\"\n)\n" ++
    "import (); import \x60f\x60\n// open\nvar x = '"

def mixedImports : List Import :=
  [(some ".", "a"), (some "_", "b/c"), (some "d", "e"), (none, "f")]

theorem mixedHeader_reads : HeaderText "p" mixedImports mixedHeader.toList ∧ ∃ header,
    parseHeader .withImports mixedHeader = ⟨some header, none⟩ ∧ header.package.name = "p" ∧
      header.imports.map imported = mixedImports := by
  have letter {c : Char} (noKeyword : Keyword.ofText? (String.ofList [c]) = none)
      (start : isIdentStart c = true) : IsName (String.ofList [c]) :=
    ⟨noKeyword, c, [], String.toList_ofList, start, nofun⟩
  have sameLine : Inline [' '] := List.forall_mem_singleton.mpr (by decide)
  have dotted : SpecText (some ".", "a") (['.', ' '] ++ "\"a\"".toList) :=
    .path (.dot sameLine) (by decide) .double
  have hidden : SpecText (some "_", "b/c") (['_', ' '] ++ "\x60b/c\x60".toList) :=
    .path (.name (letter (by decide) (by decide)) sameLine) (by decide) .back
  have renamed : SpecText (some "d", "e") (['d', ' '] ++ "\"e\"".toList) :=
    .path (.name (letter (by decide) (by decide)) sameLine) (by decide) .double
  have plain : SpecText (none, "f") ([] ++ "\x60f\x60".toList) :=
    .path .nothing (by decide) .back
  have space : Filler [' '] := by decide
  have newline : Separator ['\n'] := .line (by decide) (by decide)
  have semicolon : Separator ([] ++ ';' :: [' ']) :=
    .semicolon (List.forall_mem_nil _) space
  have commented : Separator " // dot\n\t".toList := .line (by decide) (by decide)
  have list : GroupText [(some ".", "a"), (some "_", "b/c"), (some "d", "e")] _ :=
    .more dotted commented (.more hidden semicolon (.more renamed newline .none))
  have group : DeclText _ ("import".toList ++ ([' '] ++ '(' :: ("\n\t".toList ++ _))) :=
    .group space (by decide) list
  have empty : DeclText _ ("import".toList ++ ([' '] ++ '(' :: ([] ++ _))) :=
    .group space (by decide) .none
  have single : DeclText _ _ := .single space (by decide) plain
  have clauseEnd : Separator " // of one letter\n\n".toList := .line (by decide) (by decide)
  have declsEnd : Separator "\n// open\n".toList := .line (by decide) (by decide)
  have other := @BehindText.other _ "x = '".toList .var declsEnd (by decide)
  have front : Filler "// p\n".toList := by decide
  have whole := HeaderText.header front space (by decide) (@letter 'p' (by decide) (by decide))
    (.decl clauseEnd group (.decl newline empty (.decl semicolon single other)))
  have written : HeaderText "p" mixedImports mixedHeader.toList := whole
  exact ⟨written, written_header_reads written⟩

end PackageLoader.HeaderWriting
