import PackageLoader.Token.Lexer

/-! What the text of a source is: the text of a token is what the token says it is, and the text in
front of one is white space and comments. -/
namespace PackageLoader.TokenText
open Text

/-! ## White space and comments -/

/-- Text that is skipped in front of the rest: white space, line comments that the line or the text
ends behind, and block comments. If the last one is not closed, nothing follows it. -/
inductive Skipped : Bool → List Char → List Char → Prop where
  | nothing {rest : List Char} : Skipped true [] rest
  | blank {closed : Bool} {c : Char} {gap rest : List Char} (white : isBlank c = true)
      (more : Skipped closed gap rest) : Skipped closed (c :: gap) rest
  | line {closed : Bool} {body gap rest : List Char} (oneLine : '\n' ∉ body)
      (ended : ∀ c ∈ (gap ++ rest).head?, c = '\n') (more : Skipped closed gap rest) :
      Skipped closed ('/' :: '/' :: (body ++ gap)) rest
  | block {closed : Bool} {body gap rest : List Char} (inside : ¬ ['*', '/'] <:+: body)
      (more : Skipped closed gap rest) :
      Skipped closed ('/' :: '*' :: (body ++ '*' :: '/' :: gap)) rest
  | unclosed {body : List Char} (inside : ¬ ['*', '/'] <:+: body) :
      Skipped false ('/' :: '*' :: body) []

theorem Skipped.closed_of_rest {closed : Bool} {gap rest : List Char}
    (skipped : Skipped closed gap rest) (more : rest ≠ []) : closed = true := by
  induction skipped with
  | nothing => rfl
  | blank _ _ ih => exact ih more
  | line _ _ _ ih => exact ih more
  | block _ _ ih => exact ih more
  | unclosed => exact absurd rfl more

/-- What skipping has found from inside a comment or between comments. -/
def Found : TriviaMode → Trivia → Prop
  | .between, t => Skipped t.closed t.text t.rest
  | .line, t => ∃ body gap, t.text = body ++ gap ∧ '\n' ∉ body ∧
      (∀ c ∈ (gap ++ t.rest).head?, c = '\n') ∧ Skipped t.closed gap t.rest
  | .block, t =>
      (∃ body gap, t.text = body ++ '*' :: '/' :: gap ∧ ¬ ['*', '/'] <:+: body ∧
        Skipped t.closed gap t.rest) ∨
      (¬ ['*', '/'] <:+: t.text ∧ t.closed = false ∧ t.rest = [])

@[simp]
theorem closed_push (c : Char) (t : Trivia) : (Trivia.push c t).closed = t.closed := rfl

/-- A comment does not end within its body if it does not end at the front and not behind it. -/
theorem not_ended_cons {c : Char} {body : List Char} (front : c = '*' → body.head? ≠ some '/')
    (inside : ¬ ['*', '/'] <:+: body) : ¬ ['*', '/'] <:+: c :: body := by
  rw [List.infix_cons_iff]
  rintro (⟨rest, at_front⟩ | behind)
  · cases at_front
    exact front rfl rfl
  · exact inside behind

theorem skip_found (mode : TriviaMode) (cs : List Char) : Found mode (Trivia.skip mode cs) := by
  fun_induction Trivia.skip mode cs with
  | case1 => exact .inr ⟨by simp, rfl, rfl⟩
  | case2 => exact .nothing
  | case3 => exact ⟨[], [], rfl, by simp, by simp, .nothing⟩
  | case4 rest ih =>
    obtain ⟨body, gap, text, oneLine, ended, more⟩ := ih
    simp only [Found, Trivia.text_push, text]
    exact .line oneLine ended more
  | case5 rest ih =>
    rcases ih with ⟨body, gap, text, inside, more⟩ | ⟨inside, closed, behind⟩
    · simp only [Found, Trivia.text_push, text]
      exact .block inside more
    · simp only [Found, closed_push, Trivia.text_push, Trivia.rest_push, closed, behind]
      exact .unclosed inside
  | case6 c rest _ _ white ih => exact .blank white ih
  | case7 => exact .nothing
  | case8 c rest ih =>
    split at ih
    · rename_i newline
      rw [if_pos newline]
      refine ⟨[], _, rfl, by simp, ?_, .blank ?_ ih⟩
      · simp [newline]
      · rw [newline]
        decide
    · rename_i sameLine
      rw [if_neg sameLine]
      obtain ⟨body, gap, text, oneLine, ended, more⟩ := ih
      refine ⟨c :: body, gap, ?_, ?_, ended, more⟩
      · rw [Trivia.text_push, text, List.cons_append]
      · rw [List.mem_cons, not_or]
        exact ⟨Ne.symm sameLine, oneLine⟩
  | case9 rest ih => exact .inl ⟨[], _, rfl, by simp, ih⟩
  | case10 c rest noEnd ih =>
    -- The comment would end here only if a slash followed a star.
    have noSlash {front : List Char} (starts : front <+: (Trivia.skip .block rest).text)
        (star : c = '*') : front.head? ≠ some '/' := by
      intro slash
      obtain ⟨tail, rfl⟩ := List.head?_eq_some_iff.mp slash
      obtain ⟨more, text⟩ := starts
      have whole := Trivia.text_append_rest .block rest
      rw [← text] at whole
      exact noEnd _ star whole.symm
    rcases ih with ⟨body, gap, text, inside, more⟩ | ⟨inside, closed, behind⟩
    · refine .inl ⟨c :: body, gap, ?_, not_ended_cons (noSlash ?_) inside, more⟩
      · rw [Trivia.text_push, text, List.cons_append]
      · rw [text]
        exact List.prefix_append _ _
    · exact .inr ⟨not_ended_cons (noSlash List.prefix_rfl) inside, closed, behind⟩

/-! ## Skipping is greedy -/

/-- Puts skipped text in front. -/
def pushAll (gap : List Char) (t : Trivia) : Trivia :=
  gap.foldr Trivia.push t

theorem pushAll_eq (gap : List Char) (t : Trivia) :
    pushAll gap t = ⟨gap ++ t.text, t.newline || decide ('\n' ∈ gap), t.closed, t.rest⟩ := by
  induction gap with
  | nil => simp [pushAll]
  | cons c gap ih =>
    have newline : decide ('\n' ∈ c :: gap) = decide ('\n' ∈ gap ∨ c = '\n') :=
      decide_eq_decide.mpr (by rw [List.mem_cons, or_comm, eq_comm])
    rw [pushAll, List.foldr_cons, ← pushAll, ih, newline, Bool.decide_or, ← Bool.or_assoc]
    rfl

@[simp]
theorem text_pushAll (gap : List Char) (t : Trivia) : (pushAll gap t).text = gap ++ t.text := by
  rw [pushAll_eq]

theorem skip_blank {c : Char} (white : isBlank c = true) (more : List Char) :
    Trivia.skip .between (c :: more) = Trivia.push c (Trivia.skip .between more) := by
  have noSlash : c ≠ '/' := by
    rintro rfl
    exact absurd white (by decide)
  rw [Trivia.skip.eq_def]
  split <;> simp_all

theorem skip_line_cons (c : Char) (more : List Char) : Trivia.skip .line (c :: more) =
    Trivia.push c (Trivia.skip (if c = '\n' then .between else .line) more) := rfl

theorem skip_line {body : List Char} (oneLine : '\n' ∉ body) (more : List Char) :
    Trivia.skip .line (body ++ more) = pushAll body (Trivia.skip .line more) := by
  induction body with
  | nil => rfl
  | cons c body ih =>
    rw [List.mem_cons, not_or] at oneLine
    rw [List.cons_append, skip_line_cons, if_neg (Ne.symm oneLine.1), ih oneLine.2]
    rfl

theorem skip_line_end {more : List Char} (ended : ∀ c ∈ more.head?, c = '\n') :
    Trivia.skip .line more = Trivia.skip .between more := by
  cases more with
  | nil => rfl
  | cons c more =>
    obtain rfl := ended c rfl
    rw [skip_line_cons, if_pos rfl, skip_blank (by decide)]

/-- A block comment goes on unless a star with a slash behind it ends it. -/
theorem skip_block_cons {c : Char} {more : List Char} (noEnd : c = '*' → more.head? ≠ some '/') :
    Trivia.skip .block (c :: more) = Trivia.push c (Trivia.skip .block more) := by
  rw [Trivia.skip.eq_def]
  split <;> simp_all

theorem skip_block {body : List Char} (inside : ¬ ['*', '/'] <:+: body) (more : List Char)
    (apart : more.head? ≠ some '/') :
    Trivia.skip .block (body ++ more) = pushAll body (Trivia.skip .block more) := by
  induction body with
  | nil => rfl
  | cons c body ih =>
    rw [List.infix_cons_iff, not_or] at inside
    rw [List.cons_append, skip_block_cons, ih inside.2]
    · rfl
    · rintro rfl slash
      cases body with
      | nil => exact apart slash
      | cons d body =>
        cases slash
        exact inside.1 ⟨body, rfl⟩

/-- Skipping takes all text that may be skipped. -/
theorem Skipped.skip_append {closed : Bool} {gap rest : List Char}
    (skipped : Skipped closed gap rest) : Trivia.skip .between (gap ++ rest) =
      pushAll gap (if closed then Trivia.skip .between rest else ⟨[], false, false, []⟩) := by
  induction skipped with
  | nothing => rfl
  | blank white _ ih =>
    rw [List.cons_append, skip_blank white, ih]
    rfl
  | @line closed body gap rest oneLine ended _ ih =>
    have comment : Trivia.skip .between ('/' :: '/' :: (body ++ gap) ++ rest) =
        pushAll ['/', '/'] (Trivia.skip .line (body ++ (gap ++ rest))) := by
      rw [← List.append_assoc]
      rfl
    rw [comment, skip_line oneLine, skip_line_end ended, ih]
    simp [pushAll]
  | @block closed body gap rest inside _ ih =>
    have comment : Trivia.skip .between ('/' :: '*' :: (body ++ '*' :: '/' :: gap) ++ rest) =
        pushAll ['/', '*'] (Trivia.skip .block (body ++ '*' :: '/' :: (gap ++ rest))) := by
      rw [List.cons_append, List.cons_append, List.append_assoc]
      rfl
    have ended : Trivia.skip .block ('*' :: '/' :: (gap ++ rest)) =
        pushAll ['*', '/'] (Trivia.skip .between (gap ++ rest)) := rfl
    rw [comment, skip_block inside _ (by simp), ended, ih]
    simp [pushAll]
  | @unclosed body inside =>
    have unended := skip_block inside [] (by simp)
    rw [List.append_nil] at unended
    rw [List.append_nil, if_neg Bool.false_ne_true]
    exact congrArg (pushAll ['/', '*']) unended

@[simp]
theorem newline_push (c : Char) (t : Trivia) :
    (Trivia.push c t).newline = true ↔ '\n' = c ∨ t.newline = true := by
  rw [Trivia.push, Bool.or_eq_true, decide_eq_true_eq, or_comm, eq_comm]

/-- What is skipped holds a newline if its text does. -/
theorem newline_skip (mode : TriviaMode) (cs : List Char) :
    (Trivia.skip mode cs).newline = true ↔ '\n' ∈ (Trivia.skip mode cs).text := by
  fun_induction Trivia.skip mode cs with
  | case1 | case2 | case3 | case7 => simp
  | case4 _ ih | case5 _ ih | case9 _ ih =>
    simp only [newline_push, Trivia.text_push, List.mem_cons, ih]
  | case6 _ _ _ _ _ ih | case8 _ _ ih | case10 _ _ _ ih =>
    simp only [newline_push, Trivia.text_push, List.mem_cons, ih]

/-- Text that may be skipped is the front of what is skipped. -/
theorem Skipped.prefix_skip {closed : Bool} {gap rest : List Char}
    (skipped : Skipped closed gap rest) : gap <+: (Trivia.skip .between (gap ++ rest)).text := by
  rw [skipped.skip_append, text_pushAll]
  exact List.prefix_append _ _

/-- Behind skipped text there is nothing to skip. -/
theorem skip_rest {cs : List Char} (closed : (Trivia.skip .between cs).closed = true) :
    Trivia.skip .between (Trivia.skip .between cs).rest =
      ⟨[], false, true, (Trivia.skip .between cs).rest⟩ := by
  have skipped : Skipped _ _ _ := skip_found .between cs
  have again := skipped.skip_append
  rw [Trivia.text_append_rest, closed, if_pos rfl, pushAll_eq] at again
  have lines := newline_skip .between (Trivia.skip .between cs).rest
  generalize Trivia.skip .between (Trivia.skip .between cs).rest = behind at again lines ⊢
  have text : behind.text = [] := List.self_eq_append_right.mp (congrArg Trivia.text again)
  have closes : behind.closed = true := (congrArg Trivia.closed again).symm.trans closed
  have rest : behind.rest = _ := (congrArg Trivia.rest again).symm
  rw [text] at lines
  obtain ⟨_, newline, _, _⟩ := behind
  cases newline with
  | true => cases lines.mp rfl
  | false =>
    cases text
    cases closes
    cases rest
    rfl

/-! ## The text of a token -/

/-- The text of a token by its kind: the payload of an identifier or literal, the name of a keyword
or symbol, the character that is invalid, or what starts with a quote. -/
def Spells : TokenKind → List Char → Prop
  | .ident payload, text | .literal _ payload, text => payload.toList = text
  | .keyword word, text => (TokenKind.keyword word).name.toList = text
  | .symbol symbol, text => (TokenKind.symbol symbol).name.toList = text
  | .invalid c, text => text = [c]
  | .unterminatedString, text => ∃ quote rest, text = quote :: rest ∧ quote ∈ ['"', '\'', '\x60']
  | .eof, _ | .unterminatedComment, _ => False

theorem Spells.not_final {kind : TokenKind} {text : List Char} (spelled : Spells kind text) :
    kind.isFinal = false := by
  cases kind <;> first | rfl | cases spelled

theorem wordKind_spells (text : List Char) : Spells (wordKind (String.ofList text)) text := by
  unfold wordKind
  split
  · rename_i word found
    have spelled : word.text = String.ofList text := by simpa using List.find?_some found
    exact (congrArg String.toList spelled).trans String.toList_ofList
  · exact String.toList_ofList

theorem literalLexeme_spells {kind : LiteralKind} {quote : Char} (s : Scanned)
    (quotes : quote ∈ ['"', '\'', '\x60']) :
    Spells (literalLexeme kind quote s).kind (literalLexeme kind quote s).text := by
  unfold literalLexeme
  cases s.flag with
  | true => exact String.toList_ofList
  | false => exact ⟨quote, s.text, rfl, quotes⟩

/-- Every lexeme is spelled by its text. -/
theorem lexeme_spells (c : Char) (rest : List Char) :
    Spells (lexeme c rest).kind (lexeme c rest).text := by
  unfold lexeme
  split
  · exact wordKind_spells _
  · split
    · exact String.toList_ofList
    · split
      · exact literalLexeme_spells _ (by simp [*])
      · split
        · exact literalLexeme_spells _ (by simp [*])
        · split
          · exact literalLexeme_spells _ (by simp [*])
          · split
            · rename_i found
              exact (Symbol.longest?_eq_some found).1.symm
            · rfl

end PackageLoader.TokenText
