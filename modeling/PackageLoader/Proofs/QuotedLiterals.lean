import PackageLoader.Proofs.TokensApart

/-! Literals in quotes and the lines of a source. A newline leaves such a literal open, except behind a
backslash: the character of an escape is taken whatever it is. So a literal goes on to the next line
exactly where it escapes the line end, and without such an escape it is closed on its line or ends
with it. -/
namespace PackageLoader.QuotedLiterals
open Text StatementEnds TokenLayout TokenText TokensApart

/-! ## Between the quotes -/

/-- Text between quotes: characters other than the quote, a backslash or a newline, and escapes of any
character by a backslash. -/
inductive Inside (quote : Char) : List Char → Prop where
  | nothing : Inside quote []
  | plain {c : Char} {rest : List Char} (noEscape : c ≠ '\\') (sameLine : c ≠ '\n')
      (noQuote : c ≠ quote) (more : Inside quote rest) : Inside quote (c :: rest)
  | escape (c : Char) {rest : List Char} (more : Inside quote rest) :
      Inside quote ('\\' :: c :: rest)

/-- One of the escapes is that of a newline. -/
def EscapesNewline (quote : Char) (body : List Char) : Prop :=
  ∃ before after, body = before ++ '\\' :: '\n' :: after ∧ Inside quote before

theorem escapesNewline_plain {quote c : Char} {rest : List Char} (noEscape : c ≠ '\\')
    (sameLine : c ≠ '\n') (noQuote : c ≠ quote) :
    EscapesNewline quote (c :: rest) ↔ EscapesNewline quote rest := by
  constructor
  · rintro ⟨before, after, whole, inside⟩
    cases inside with
    | nothing =>
      cases whole
      exact absurd rfl noEscape
    | plain _ _ _ more =>
      obtain ⟨rfl, rfl⟩ := List.cons.inj whole
      exact ⟨_, after, rfl, more⟩
    | escape d more => exact absurd (List.cons.inj whole).1 noEscape
  · rintro ⟨before, after, rfl, inside⟩
    exact ⟨c :: before, after, rfl, .plain noEscape sameLine noQuote inside⟩

theorem escapesNewline_escape {quote c : Char} {rest : List Char} :
    EscapesNewline quote ('\\' :: c :: rest) ↔ c = '\n' ∨ EscapesNewline quote rest := by
  constructor
  · rintro ⟨before, after, whole, inside⟩
    cases inside with
    | nothing =>
      cases whole
      exact .inl rfl
    | plain noEscape => exact absurd (List.cons.inj whole).1.symm noEscape
    | escape d more =>
      simp only [List.cons_append, List.cons.injEq, true_and] at whole
      exact .inr ⟨_, after, whole.2, more⟩
  · rintro (rfl | ⟨before, after, rfl, inside⟩)
    · exact ⟨[], rest, rfl, .nothing⟩
    · exact ⟨'\\' :: c :: before, after, rfl, .escape c inside⟩

/-- A newline stands between quotes only as the character of an escape. -/
theorem newline_mem_iff {quote : Char} {body : List Char} (inside : Inside quote body) :
    '\n' ∈ body ↔ EscapesNewline quote body := by
  induction inside with
  | nothing => simp [EscapesNewline]
  | plain noEscape sameLine noQuote _ ih =>
    rw [escapesNewline_plain noEscape sameLine noQuote, List.mem_cons, ih]
    simp [Ne.symm sameLine]
  | escape c _ ih =>
    rw [escapesNewline_escape, List.mem_cons, List.mem_cons, ih]
    simp [eq_comm]

/-- What is taken behind an opening quote: the text between the quotes and the closing one, or the text
up to the end of a line or of the source, where a last backslash has nothing to escape. -/
inductive Taken (quote : Char) (body : List Char) : Scanned → Prop where
  | closed (rest : List Char) : Taken quote body ⟨body ++ [quote], true, rest⟩
  | lineEnd (rest : List Char) : Taken quote body ⟨body, false, '\n' :: rest⟩
  | textEnd : Taken quote body ⟨body, false, []⟩
  | backslash : Taken quote body ⟨body ++ ['\\'], false, []⟩

theorem Taken.push {quote : Char} {body : List Char} {s : Scanned} (taken : Taken quote body s)
    (c : Char) : Taken quote (c :: body) (s.push c) := by
  cases taken with
  | closed rest => exact .closed rest
  | lineEnd rest => exact .lineEnd rest
  | textEnd => exact .textEnd
  | backslash => exact .backslash

theorem scanQuoted_taken (quote : Char) (cs : List Char) :
    ∃ body, Inside quote body ∧ Taken quote body (scanQuoted quote cs) := by
  fun_induction scanQuoted quote cs with
  | case1 => exact ⟨[], .nothing, .textEnd⟩
  | case2 => exact ⟨[], .nothing, .backslash⟩
  | case3 c rest ih =>
    obtain ⟨body, inside, taken⟩ := ih
    exact ⟨'\\' :: c :: body, .escape c inside, (taken.push c).push '\\'⟩
  | case4 rest => exact ⟨[], .nothing, .lineEnd rest⟩
  | case5 rest => exact ⟨[], .nothing, .closed rest⟩
  | case6 c rest last inner sameLine noQuote ih =>
    obtain ⟨body, inside, taken⟩ := ih
    exact ⟨c :: body, .plain (ne_backslash last inner) sameLine noQuote inside, taken.push c⟩

/-! ## Tokens -/

/-- The literals that the quotes open. -/
def quotedKind (quote : Char) : LiteralKind :=
  if quote = '"' then .string else .rune

/-- A token that a quote opens, with the text between the quotes, in front of the rest: it is closed by
the same quote, or it is open and ends with a line or with the source. -/
inductive Quoted (quote : Char) (body : List Char) : TokenKind → List Char → List Char → Prop where
  | closed (rest : List Char) :
      Quoted quote body (.literal (quotedKind quote) (String.ofList (quote :: (body ++ [quote]))))
        (quote :: (body ++ [quote])) rest
  | lineEnd (rest : List Char) :
      Quoted quote body .unterminatedString (quote :: body) ('\n' :: rest)
  | textEnd : Quoted quote body .unterminatedString (quote :: body) []
  | backslash : Quoted quote body .unterminatedString (quote :: (body ++ ['\\'])) []

/-- A token has no newline in it, and an open literal ends at the end of its line. -/
def StaysOnLine (kind : TokenKind) (text rest : List Char) : Prop :=
  '\n' ∉ text ∧ (kind = .unterminatedString → ∀ c ∈ rest.head?, c = '\n')

theorem lexeme_quoted {quote : Char} (quotes : quote ∈ ['"', '\'']) (cs : List Char) :
    ∃ body, Inside quote body ∧
      Quoted quote body (lexeme quote cs).kind (lexeme quote cs).text (lexeme quote cs).rest := by
  have opened : lexeme quote cs = literalLexeme (quotedKind quote) quote (scanQuoted quote cs) := by
    simp only [List.mem_cons, List.not_mem_nil, or_false] at quotes
    rcases quotes with rfl | rfl
    · exact lexeme_string cs
    · exact lexeme_rune cs
  obtain ⟨body, inside, taken⟩ := scanQuoted_taken quote cs
  refine ⟨body, inside, ?_⟩
  rw [opened]
  generalize scanQuoted quote cs = s at taken
  cases taken with
  | closed rest => exact .closed rest
  | lineEnd rest => exact .lineEnd rest
  | textEnd => exact .textEnd
  | backslash => exact .backslash

/-- A token that a quote opens stays on its line unless it escapes a newline. -/
theorem Quoted.staysOnLine_iff {quote : Char} {body text rest : List Char} {kind : TokenKind}
    (quoted : Quoted quote body kind text rest) (inside : Inside quote body)
    (visible : quote ≠ '\n') :
    StaysOnLine kind text rest ↔ ¬ EscapesNewline quote body := by
  rw [← newline_mem_iff inside, StaysOnLine]
  cases quoted <;> simp [Ne.symm visible]

theorem literalLexeme_kind {kind found : LiteralKind} {quote : Char} {s : Scanned} {payload : String}
    (literal : (literalLexeme kind quote s).kind = .literal found payload) : found = kind := by
  unfold literalLexeme at literal
  cases flag : s.flag with
  | false => simp [flag] at literal
  | true =>
    simp only [flag, if_true, TokenKind.literal.injEq] at literal
    exact literal.1.symm

theorem numberOf_no_rune (s : Scanned) (payload : String) :
    (numberOf s).kind ≠ .literal .rune payload := by
  unfold numberOf
  simp only [ne_eq, TokenKind.literal.injEq, not_and]
  intro rune
  split at rune
  · cases rune
  · split at rune <;> cases rune

/-- Rune literals are opened by single quotes. -/
theorem rune_opened {c : Char} {rest : List Char} {payload : String}
    (rune : (lexeme c rest).kind = .literal .rune payload) : c = '\'' := by
  cases word : isIdentStart c with
  | true =>
    rw [lexeme, if_pos word] at rune
    simp only [wordKind] at rune
    split at rune <;> cases rune
  | false =>
    cases number : startsNumber c rest with
    | true =>
      rw [lexeme_number word number] at rune
      exact absurd rune (numberOf_no_rune _ _)
    | false =>
      rw [lexeme_other word number] at rune
      split at rune
      · cases literalLexeme_kind rune
      · split at rune
        · assumption
        · split at rune
          · cases literalLexeme_kind rune
          · split at rune <;> cases rune

/-! ## Calls -/

/-- A call whose token a quote opens takes that token from the text behind the gap. -/
theorem split_lexeme {s : LexState} {gap tail : List Char} {quote : Char}
    (split : Split s s.next.1 s.next.2 gap (quote :: tail)) (filled : isBlank quote = false)
    (noComment : quote ≠ '/') :
    s.next.1.kind = (lexeme quote (tail ++ s.next.2.rest)).kind ∧
      (lexeme quote (tail ++ s.next.2.rest)).text = quote :: tail ∧
      (lexeme quote (tail ++ s.next.2.rest)).rest = s.next.2.rest := by
  have starts : s.rest = gap ++ quote :: (tail ++ s.next.2.rest) := by
    rw [split.rest, List.append_assoc]
    rfl
  have stops : (Trivia.skip .between s.rest).rest = quote :: (tail ++ s.next.2.rest) := by
    have skips := split.skipped.skip_append
    rw [split.skipped.closed_of_rest (by simp), if_pos rfl, List.cons_append, ← starts,
      skip_bare filled fun slash => absurd slash noComment, pushAll_eq] at skips
    rw [skips]
  have comes := next_comes s
  generalize later : s.next.2.rest = behind at stops ⊢
  generalize Trivia.skip .between s.rest = t at comes stops
  generalize s.next = found at comes later
  cases comes with
  | statementEnd =>
    have lengths := congrArg List.length (stops.symm.trans later)
    simp only [List.length_cons, List.length_append] at lengths
    omega
  | textEnd rest => cases rest.symm.trans stops
  | @token c _ first =>
    obtain ⟨rfl, rfl⟩ := List.cons.inj (first.symm.trans stops)
    have ends : (lexeme c (tail ++ behind)).rest = behind := later
    have whole := lexeme_append c (tail ++ behind)
    rw [ends, ← List.cons_append] at whole
    exact ⟨rfl, List.append_cancel_right whole, ends⟩

theorem quotes_visible : ∀ quote ∈ ['"', '\''], isBlank quote = false ∧ quote ≠ '/' ∧ quote ≠ '\n' :=
  List.all_iff_forall_prop.mp (by decide)

/-- A call whose token a quote opens gives a quoted token. -/
theorem split_quoted {s : LexState} {gap text : List Char} {quote : Char}
    (quotes : quote ∈ ['"', '\'']) (split : Split s s.next.1 s.next.2 gap text)
    (opened : text.head? = some quote) : ∃ body, Inside quote body ∧
      Quoted quote body s.next.1.kind text s.next.2.rest := by
  obtain ⟨tail, rfl⟩ := List.head?_eq_some_iff.mp opened
  obtain ⟨filled, noComment, -⟩ := quotes_visible quote quotes
  obtain ⟨kind, taken, rest⟩ := split_lexeme split filled noComment
  have found := lexeme_quoted quotes (tail ++ s.next.2.rest)
  rwa [← kind, taken, rest] at found

/-- The text of a rune literal starts with a single quote. -/
theorem split_rune {s : LexState} {gap text : List Char} {payload : String}
    (split : Split s s.next.1 s.next.2 gap text) (rune : s.next.1.kind = .literal .rune payload) :
    text.head? = some '\'' := by
  have spelled : payload.toList = text := by
    rcases split.spelled with ⟨-, semi | final⟩ | ⟨-, spelled⟩
    · cases rune.symm.trans semi
    · rw [rune] at final
      cases final
    · rw [rune] at spelled
      exact spelled
  have comes := next_comes s
  generalize Trivia.skip .between s.rest = t at comes
  generalize s.next = found at comes rune
  cases comes with
  | statementEnd => cases rune
  | textEnd => cases closed : t.closed <;> simp [closed] at rune
  | @token c rest =>
    have kind : (lexeme c rest).kind = .literal .rune payload := rune
    have own := lexeme_spells c rest
    rw [kind] at own
    obtain ⟨first, tail, starts⟩ := List.exists_cons_of_ne_nil (lexeme_text_ne_nil c rest)
    have whole := lexeme_append c rest
    rw [starts, List.cons_append] at whole
    rw [← spelled, show payload.toList = (lexeme c rest).text from own, starts, List.head?_cons,
      (List.cons.inj whole).1, rune_opened kind]

theorem Quoted.body_in_text {quote : Char} {body text rest : List Char} {kind : TokenKind}
    (quoted : Quoted quote body kind text rest) : body <:+: text := by
  cases quoted with
  | closed | backslash => exact ⟨[quote], _, rfl⟩
  | lineEnd | textEnd => exact (List.suffix_cons quote body).isInfix

/-- The text of a token stands in the source. -/
theorem text_in_source {source : String} {i : Nat} {gap text : List Char}
    (split : Split (state source i) (call source i) (state source (i + 1)) gap text) :
    text <:+: source.toList := by
  obtain ⟨before, joined, -⟩ := state_rest source i
  refine ⟨before ++ gap, (state source (i + 1)).rest, ?_⟩
  rw [joined, split.rest]
  simp

theorem EscapesNewline.in_body {quote : Char} {body : List Char}
    (escapes : EscapesNewline quote body) : ['\\', '\n'] <:+: body := by
  obtain ⟨before, after, rfl, -⟩ := escapes
  exact ⟨before, after, by simp⟩

/-- A token that a double or a single quote opens, as every rune literal is, ends with the same quote or
is open and ends with a line or with the source. It stays on its line unless it escapes a newline, so in
a source without a backslash at a line end all of them do. -/
theorem quoted_stay_on_line (source : String) (i : Nat) :
    ∃ gap text, Split (state source i) (call source i) (state source (i + 1)) gap text ∧
      (∀ payload, (call source i).kind = .literal .rune payload → text.head? = some '\'') ∧
      ∀ quote ∈ ['"', '\''], text.head? = some quote → ∃ body, Inside quote body ∧
        Quoted quote body (call source i).kind text (state source (i + 1)).rest ∧
        (StaysOnLine (call source i).kind text (state source (i + 1)).rest ↔
          ¬ EscapesNewline quote body) ∧
        (¬ ['\\', '\n'] <:+: source.toList →
          StaysOnLine (call source i).kind text (state source (i + 1)).rest) := by
  obtain ⟨gap, text, split⟩ := next_split (state source i)
  refine ⟨gap, text, split, fun payload => split_rune split, fun quote quotes opened => ?_⟩
  obtain ⟨body, inside, quoted⟩ := split_quoted quotes split opened
  have stays := quoted.staysOnLine_iff inside (quotes_visible quote quotes).2.2
  refine ⟨body, inside, quoted, stays, fun none => stays.mpr fun escapes => none ?_⟩
  exact escapes.in_body.trans (quoted.body_in_text.trans (text_in_source split))

/-- A string that goes on behind an escaped line end. -/
def brokenString : String := "\"a\\\nb\""

/-- A string that nothing closes. -/
def openString : String := "\"a"

/-- The one escapes a newline and leaves its line, the other stays. -/
theorem strings_and_lines :
    (∃ gap text body,
      Split (state brokenString 0) (call brokenString 0) (state brokenString 1) gap text ∧
      Quoted '"' body (call brokenString 0).kind text (state brokenString 1).rest ∧
      EscapesNewline '"' body ∧
      ¬ StaysOnLine (call brokenString 0).kind text (state brokenString 1).rest) ∧
    ∃ gap text, Split (state openString 0) (call openString 0) (state openString 1) gap text ∧
      text.head? = some '"' ∧ ¬ ['\\', '\n'] <:+: openString.toList ∧
      StaysOnLine (call openString 0).kind text (state openString 1).rest := by
  constructor
  · obtain ⟨gap, text, split, -, quoted⟩ := quoted_stay_on_line brokenString 0
    have kind : (call brokenString 0).kind = .literal .string brokenString := by decide +kernel
    have spelled : brokenString.toList = text := by
      have words := split.spelled
      rw [kind] at words
      exact (words.resolve_left (by simp [TokenKind.isFinal])).2
    subst spelled
    obtain ⟨body, -, opened, stays, -⟩ := quoted '"' (by decide) rfl
    have leaves : ¬ StaysOnLine (call brokenString 0).kind brokenString.toList
        (state brokenString 1).rest := fun stays => absurd stays.1 (by decide)
    exact ⟨gap, _, body, split, opened, not_not.mp (mt stays.mpr leaves), leaves⟩
  · obtain ⟨gap, text, split, -, quoted⟩ := quoted_stay_on_line openString 0
    have kind : (call openString 0).kind = .unterminatedString := by decide +kernel
    have first : text.head? = some '"' := by
      have words := split.spelled
      rw [kind] at words
      obtain ⟨-, quote, rest, rfl, quotes⟩ := words.resolve_left (by simp [TokenKind.isFinal])
      have member : quote ∈ openString.toList := (text_in_source split).subset (List.mem_cons_self ..)
      have only : ∀ q ∈ openString.toList, q ∈ ['"', '\'', '\x60'] → q = '"' :=
        List.all_iff_forall_prop.mp (by decide)
      rw [List.head?_cons, only quote member quotes]
    have plain : ¬ ['\\', '\n'] <:+: openString.toList := by decide
    obtain ⟨-, -, -, -, stays⟩ := quoted '"' (by decide) first
    exact ⟨gap, text, split, first, plain, stays plain⟩

/-- A closed string and a closed rune literal go on behind a line end, and an open string ends with a
line that it did not start on. -/
theorem escaped_newline_leaves_line :
    (call brokenString 0).kind = .literal .string brokenString ∧
      brokenString.toList.head? = some '"' ∧ '\n' ∈ brokenString.toList ∧
      (call "'\\\n'" 0).kind = .literal .rune "'\\\n'" ∧
      call "\"a\\\nb\nc" 0 = ⟨.unterminatedString, .ofOffsets 0 5⟩ ∧
      "\"a\\\nb\nc".toList.idxOf '\n' = 3 := by
  decide +kernel

end PackageLoader.QuotedLiterals
