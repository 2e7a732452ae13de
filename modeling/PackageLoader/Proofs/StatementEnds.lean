import PackageLoader.Proofs.TokenLayout

/-! Where semicolons are inserted. The lexer decides about a semicolon when it has skipped the text
in front of the next token, so what counts is the token before that text, the text itself and the
token behind it. Behind an inserted semicolon nothing is left to skip, so no second one follows and
the next call gives the token that the first one saw. -/
namespace PackageLoader.StatementEnds
open Text TokenLayout TokenText

/-- The call gives a semicolon that no text spells. -/
def Inserts (s : LexState) : Prop :=
  s.next.1.kind = .semi ∧ ∃ gap, Split s s.next.1 s.next.2 gap []

/-- A statement ends between two tokens if the first can be the last one of a statement and the text
ends or a line does between them. An open comment is no end of either. -/
def EndsBetween (a b : TokenKind) (gap : List Char) : Prop :=
  a.endsStatement = true ∧ (b = .eof ∨ '\n' ∈ gap) ∧ b ≠ .unterminatedComment

instance (a b : TokenKind) (gap : List Char) : Decidable (EndsBetween a b gap) :=
  inferInstanceAs (Decidable (_ ∧ _))

/-! ## One call -/

/-- What a call comes to behind the text that it skips: the end of a statement, the end of the text
or a token. -/
inductive Comes (s : LexState) (t : Trivia) : Token × LexState → Prop where
  | statementEnd (closed : t.closed = true) (lineEnd : t.newline = true ∨ t.rest = [])
      (ends : s.afterStatement = true) :
      Comes s t (⟨.semi, .point (s.offset + utf8Length t.text)⟩,
        ⟨s.offset + utf8Length t.text, t.rest, false⟩)
  | textEnd (rest : t.rest = []) (quiet : t.closed = true → s.afterStatement = false) :
      Comes s t (⟨if t.closed then .eof else .unterminatedComment,
        .point (s.offset + utf8Length t.text)⟩, ⟨s.offset + utf8Length t.text, [], false⟩)
  | token {c : Char} {rest : List Char} (behind : t.rest = c :: rest)
      (quiet : s.afterStatement = true → t.newline = false) :
      Comes s t (⟨(lexeme c rest).kind, .ofOffsets (s.offset + utf8Length t.text)
          (s.offset + utf8Length t.text + utf8Length (lexeme c rest).text)⟩,
        ⟨s.offset + utf8Length t.text + utf8Length (lexeme c rest).text, (lexeme c rest).rest,
          (lexeme c rest).kind.endsStatement⟩)

theorem next_comes (s : LexState) : Comes s (Trivia.skip .between s.rest) s.next := by
  have skipped : Skipped _ _ _ := skip_found .between s.rest
  unfold LexState.next
  generalize Trivia.skip .between s.rest = t at skipped
  simp only
  split
  · rename_i inserted
    simp only [Bool.and_eq_true, Bool.or_eq_true, List.isEmpty_iff] at inserted
    exact .statementEnd inserted.1.1 inserted.1.2 inserted.2
  · rename_i noEnd
    simp only [Bool.and_eq_true, Bool.or_eq_true, List.isEmpty_iff, not_and] at noEnd
    split
    · rename_i rest
      refine .textEnd rest fun closed => ?_
      rw [Bool.eq_false_iff]
      exact noEnd ⟨closed, .inr rest⟩
    · rename_i c rest behind
      refine .token behind fun ends => ?_
      have closed := skipped.closed_of_rest (by simp [behind])
      rw [Bool.eq_false_iff]
      intro newline
      exact noEnd ⟨closed, .inl newline⟩ ends

/-- The flag of a state says whether the token in front of it can end a statement. -/
theorem next_afterStatement (s : LexState) :
    s.next.2.afterStatement = s.next.1.kind.endsStatement := by
  have comes := next_comes s
  generalize Trivia.skip .between s.rest = t at comes
  generalize s.next = found at comes
  cases comes with
  | statementEnd => rfl
  | textEnd => cases t.closed <;> rfl
  | token => rfl

/-- Where a statement ends, the call gives a semicolon behind the text that it skips. -/
theorem next_statementEnd {s : LexState} (ends : s.afterStatement = true)
    (closed : (Trivia.skip .between s.rest).closed = true)
    (lineEnd : (Trivia.skip .between s.rest).newline = true ∨
      (Trivia.skip .between s.rest).rest = []) :
    s.next = (⟨.semi, .point (s.offset + utf8Length (Trivia.skip .between s.rest).text)⟩,
      ⟨s.offset + utf8Length (Trivia.skip .between s.rest).text,
        (Trivia.skip .between s.rest).rest, false⟩) := by
  have comes := next_comes s
  generalize Trivia.skip .between s.rest = t at *
  generalize s.next = found at comes
  cases comes with
  | statementEnd => rfl
  | textEnd _ quiet => cases (quiet closed).symm.trans ends
  | token behind quiet =>
    rcases lineEnd with newline | rest
    · cases (quiet ends).symm.trans newline
    · cases rest.symm.trans behind

/-- An open comment is all that is left. -/
theorem next_unclosed {s : LexState} (unclosed : (Trivia.skip .between s.rest).closed = false) :
    s.next.1.kind = .unterminatedComment := by
  have comes := next_comes s
  have skipped : Skipped _ _ _ := skip_found .between s.rest
  generalize Trivia.skip .between s.rest = t at *
  generalize s.next = found at comes
  cases comes with
  | statementEnd closed => cases unclosed.symm.trans closed
  | textEnd => simp [unclosed]
  | token behind => cases unclosed.symm.trans (skipped.closed_of_rest (by simp [behind]))

/-- What a call splits off in front of its token is skipped. -/
theorem split_gap {s next : LexState} {t : Token} {gap text : List Char}
    (split : Split s t next gap text) : gap <+: (Trivia.skip .between s.rest).text := by
  have front := split.skipped.prefix_skip
  rwa [← List.append_assoc, ← split.rest] at front

/-- A semicolon is inserted where a statement ends, and nowhere else. -/
theorem inserts_iff (s : LexState) : Inserts s ↔ s.afterStatement = true ∧
    (Trivia.skip .between s.rest).closed = true ∧
    ((Trivia.skip .between s.rest).newline = true ∨ (Trivia.skip .between s.rest).rest = []) := by
  have whole := Trivia.text_append_rest .between s.rest
  constructor
  · rintro ⟨semi, gap, split⟩
    have comes := next_comes s
    have front := (split_gap split).length_le
    have joined := congrArg List.length split.rest
    generalize Trivia.skip .between s.rest = t at comes whole front
    generalize s.next = found at comes semi joined
    cases comes with
    | statementEnd closed lineEnd ends => exact ⟨ends, closed, lineEnd⟩
    | textEnd => cases closed : t.closed <;> simp [closed] at semi
    | @token c rest behind =>
      -- A token takes text, so more than what is skipped is gone behind it.
      have parts := congrArg List.length (lexeme_append c rest)
      have positive := List.length_pos_iff.mpr (lexeme_text_ne_nil c rest)
      have lengths := congrArg List.length whole
      rw [behind] at lengths
      simp only [List.length_append, List.length_cons, List.length_nil] at *
      omega
  · rintro ⟨ends, closed, lineEnd⟩
    have skipped : Skipped _ _ _ := skip_found .between s.rest
    rw [Inserts, next_statementEnd ends closed lineEnd]
    refine ⟨rfl, (Trivia.skip .between s.rest).text, ?_, ?_, ?_, ?_, .inl ⟨rfl, .inl rfl⟩, ?_⟩
    · simp [whole]
    · simp [Span.point]
    · simp
    · simpa [closed] using skipped
    · intro final
      cases final

instance (s : LexState) : Decidable (Inserts s) :=
  decidable_of_iff _ (inserts_iff s).symm

theorem not_inserts_of_quiet {s : LexState} (quiet : s.afterStatement = false) : ¬ Inserts s := by
  rw [inserts_iff, quiet]
  exact fun inserted => nomatch inserted.1

/-- Behind an inserted semicolon the next call starts at what the one before it has come to. -/
theorem next_inserted {s : LexState} (inserts : Inserts s) :
    s.next = (⟨.semi, .point (s.offset + utf8Length (Trivia.skip .between s.rest).text)⟩,
      ⟨s.offset + utf8Length (Trivia.skip .between s.rest).text,
        (Trivia.skip .between s.rest).rest, false⟩) := by
  obtain ⟨ends, closed, lineEnd⟩ := (inserts_iff s).mp inserts
  exact next_statementEnd ends closed lineEnd

theorem lexeme_running (c : Char) (rest : List Char) :
    (lexeme c rest).kind ≠ .eof ∧ (lexeme c rest).kind ≠ .unterminatedComment := by
  have running := (lexeme_spells c rest).not_final
  constructor <;> intro final <;> rw [final] at running <;> cases running

/-- The end of the text is given only where nothing is left. -/
theorem rest_of_eof {s : LexState} (final : s.next.1.kind = .eof) :
    (Trivia.skip .between s.rest).rest = [] := by
  have comes := next_comes s
  generalize Trivia.skip .between s.rest = t at *
  generalize s.next = found at comes final
  cases comes with
  | statementEnd => cases final
  | textEnd rest => exact rest
  | token => exact absurd final (lexeme_running _ _).1

/-- Where no semicolon is due, the rest tells the end of the text from the other tokens. -/
theorem next_quiet {s : LexState} (quiet : s.afterStatement = false)
    (closed : (Trivia.skip .between s.rest).closed = true) :
    (s.next.1.kind = .eof ↔ (Trivia.skip .between s.rest).rest = []) ∧
      s.next.1.kind ≠ .unterminatedComment := by
  have comes := next_comes s
  generalize Trivia.skip .between s.rest = t at *
  generalize s.next = found at comes
  cases comes with
  | statementEnd _ _ ends => cases quiet.symm.trans ends
  | textEnd rest => simp [rest, closed]
  | @token c rest behind =>
    obtain ⟨noEnd, noComment⟩ := lexeme_running c rest
    exact ⟨iff_of_false noEnd (by simp [behind]), noComment⟩

/-- A token that stands behind a gap at once is split off together with the gap. -/
theorem split_behind {s behind next : LexState} {t : Token} {gap text : List Char}
    (split : Split behind t next [] text) (rest : s.rest = gap ++ behind.rest)
    (offset : behind.offset = s.offset + utf8Length gap) (skipped : Skipped true gap behind.rest)
    (noComment : t.kind ≠ .unterminatedComment) : Split s t next gap text := by
  have starts : behind.rest = text ++ next.rest := split.rest
  have stop : behind.offset + utf8Length text = s.offset + utf8Length (gap ++ text) := by
    rw [offset, utf8Length_append, Nat.add_assoc]
  exact {
    rest := by rw [rest, starts, List.append_assoc]
    span := by rw [split.span, List.nil_append, stop, offset]; rfl
    offset := split.offset.trans stop
    skipped := by simpa [noComment, ← starts] using skipped
    spelled := split.spelled
    ended := split.ended }

/-- Where no semicolon is inserted, the next call gives the next token, and no statement ends in
front of it. -/
theorem written_next {s : LexState} {a : TokenKind} (front : s.afterStatement = a.endsStatement)
    (written : ¬ Inserts s) : ∃ gap text, Split s s.next.1 s.next.2 gap text ∧
      ¬ EndsBetween a s.next.1.kind gap := by
  obtain ⟨gap, text, split⟩ := next_split s
  refine ⟨gap, text, split, ?_⟩
  rw [EndsBetween, ← front]
  rintro ⟨ends, lineEnd, noComment⟩
  apply written
  rw [inserts_iff]
  refine ⟨ends, ?_, ?_⟩
  · rw [← Bool.not_eq_false]
    exact fun unclosed => noComment (next_unclosed unclosed)
  · rcases lineEnd with final | line
    · exact .inr (rest_of_eof final)
    · exact .inl ((newline_skip _ _).mpr ((split_gap split).subset line))

/-- An inserted semicolon ends a statement in front of the token that the call behind it gives, and
stands where that token starts. -/
theorem inserted_next {s : LexState} {a : TokenKind} (front : s.afterStatement = a.endsStatement)
    (inserts : Inserts s) : ∃ gap text,
    Split s s.next.2.next.1 s.next.2.next.2 gap text ∧ EndsBetween a s.next.2.next.1.kind gap ∧
      s.next.1 = ⟨.semi, s.next.2.next.1.span.start, s.next.2.next.1.span.start⟩ := by
  obtain ⟨ends, closed, lineEnd⟩ := (inserts_iff s).mp inserts
  have skipped : Skipped _ _ _ := skip_found .between s.rest
  rw [next_inserted inserts]
  generalize stands : LexState.mk _ _ _ = behind
  have quiet : behind.afterStatement = false := by rw [← stands]
  have rest : behind.rest = (Trivia.skip .between s.rest).rest := by rw [← stands]
  have nothing : Trivia.skip .between behind.rest = ⟨[], false, true, behind.rest⟩ := by
    rw [rest]
    exact skip_rest closed
  obtain ⟨gap, text, split⟩ := next_split behind
  obtain rfl : gap = [] := by simpa [nothing] using split_gap split
  obtain ⟨final, noComment⟩ := next_quiet quiet (by rw [nothing])
  rw [nothing] at final
  rw [closed, ← rest] at skipped
  refine ⟨_, text, split_behind split ?_ (by rw [← stands]) skipped noComment,
    ⟨front.symm.trans ends, ?_, noComment⟩, ?_⟩
  · rw [rest, Trivia.text_append_rest]
  · rw [final, rest, ← newline_skip]
    exact lineEnd.symm
  · rw [split.span, ← stands]
    rfl

/-! ## All calls on a source -/

/-- The call gives a semicolon that no text of the source spells. -/
def Inserted (source : String) (i : Nat) : Prop :=
  Inserts (state source i)

instance (source : String) (i : Nat) : Decidable (Inserted source i) :=
  inferInstanceAs (Decidable (Inserts _))

/-- Two calls give tokens that are not inserted, and all calls between them insert theirs. -/
structure Consecutive (source : String) (i j : Nat) : Prop where
  ordered : i < j
  first : ¬ Inserted source i
  second : ¬ Inserted source j
  between : ∀ k, i < k → k < j → Inserted source k

/-- The tokens of the calls between two calls. -/
def tokensBetween (source : String) (i j : Nat) : List Token :=
  (List.range' (i + 1) (j - (i + 1))).map (call source)

theorem start_quiet (source : String) : (LexState.start source).afterStatement = false := by
  unfold LexState.start
  split <;> rfl

theorem not_inserted_behind {source : String} {i : Nat} (inserted : Inserted source i) :
    ¬ Inserted source (i + 1) := by
  apply not_inserts_of_quiet
  exact congrArg LexState.afterStatement (congrArg Prod.snd (next_inserted inserted))

/-- Between two consecutive tokens stands nothing or one inserted semicolon. -/
theorem consecutive_cases {source : String} {i j : Nat} (pair : Consecutive source i j) :
    (j = i + 1 ∧ ¬ Inserted source (i + 1)) ∨ (j = i + 2 ∧ Inserted source (i + 1)) := by
  have ordered := pair.ordered
  by_cases inserted : Inserted source (i + 1)
  · refine .inr ⟨?_, inserted⟩
    have other : j ≠ i + 1 := by
      rintro rfl
      exact pair.second inserted
    apply Nat.le_antisymm _ (by omega)
    apply Nat.le_of_not_lt
    intro further
    exact not_inserted_behind inserted (pair.between (i + 2) (by omega) further)
  · refine .inl ⟨?_, inserted⟩
    apply Nat.le_antisymm _ ordered
    apply Nat.le_of_not_lt
    intro further
    exact inserted (pair.between (i + 1) (by omega) further)

/-- Semicolons are inserted exactly at statement ends. Between two consecutive tokens of a source that
are not inserted, the lexer gives one semicolon if a statement ends between them, with an empty span
where the second one starts, and nothing if none does. None is inserted in front of the first token,
and no two in a row. -/
theorem semicolons_at_statement_ends (source : String) :
    (∃ k, tokenize source = ⟨(List.range k).map (call source), call source k⟩) ∧
      ¬ Inserted source 0 ∧ (∀ i, Inserted source i → ¬ Inserted source (i + 1)) ∧
      ∀ i j, Consecutive source i j → ∃ gap text,
        Split (state source (i + 1)) (call source j) (state source (j + 1)) gap text ∧
        tokensBetween source i j =
          if EndsBetween (call source i).kind (call source j).kind gap then
            [⟨.semi, (call source j).span.start, (call source j).span.start⟩]
          else [] := by
  obtain ⟨k, -, running, final⟩ := exists_final (.start source)
  refine ⟨⟨k, run_eq running final⟩, not_inserts_of_quiet (start_quiet source),
    fun i => not_inserted_behind, ?_⟩
  intro i j pair
  have front : (state source (i + 1)).afterStatement = (call source i).kind.endsStatement :=
    next_afterStatement (state source i)
  rcases consecutive_cases pair with ⟨rfl, written⟩ | ⟨rfl, inserted⟩
  · obtain ⟨gap, text, split, noEnd⟩ := written_next front written
    refine ⟨gap, text, split, Eq.trans ?_ (if_neg noEnd).symm⟩
    rw [tokensBetween, Nat.sub_self]
    rfl
  · obtain ⟨gap, text, split, ends, semi⟩ := inserted_next front inserted
    refine ⟨gap, text, split, Eq.trans ?_ (if_pos ends).symm⟩
    have one : i + 2 - (i + 1) = 1 := by omega
    rw [tokensBetween, one]
    exact congrArg (· :: []) semi

/-- Two names with a comment between them that goes on to the next line. -/
def commentedNames : String := "x /*\n*/ y"

/-- The newline in the comment ends the statement, and the semicolon stands behind the comment. -/
theorem comment_ends_statement : Consecutive commentedNames 0 2 ∧ ∃ gap text,
    Split (state commentedNames 1) (call commentedNames 2) (state commentedNames 3) gap text ∧
      EndsBetween (call commentedNames 0).kind (call commentedNames 2).kind gap ∧
      tokensBetween commentedNames 0 2 = [⟨.semi, .point 8⟩] := by
  have pair : Consecutive commentedNames 0 2 := by
    refine ⟨by decide, by decide +kernel, by decide +kernel, fun k above below => ?_⟩
    obtain rfl : k = 1 := by omega
    decide +kernel
  have given : tokensBetween commentedNames 0 2 = [⟨.semi, .point 8⟩] := by decide +kernel
  obtain ⟨-, -, -, inserted⟩ := semicolons_at_statement_ends commentedNames
  obtain ⟨gap, text, split, tokens⟩ := inserted 0 2 pair
  refine ⟨pair, gap, text, split, ?_, given⟩
  by_cases ends : EndsBetween (call commentedNames 0).kind (call commentedNames 2).kind gap
  · exact ends
  · rw [if_neg ends, given] at tokens
    cases tokens

end PackageLoader.StatementEnds
