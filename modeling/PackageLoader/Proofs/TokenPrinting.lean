import PackageLoader.Proofs.HeaderReading
import PackageLoader.Proofs.TokensApart

/-! Printing tokens and lexing them again. In front of a space every token is taken for what it was, and
an inserted semicolon comes back as one that is written, behind which no other is inserted. -/
namespace PackageLoader.TokenPrinting
open HeaderReading StatementEnds ClauseAlone TokenText TokensApart

/-- The text of a kind of token. -/
def spelling : TokenKind → String
  | .ident text | .literal _ text => text
  | kind => kind.name

/-- Tokens written one behind the other with single spaces between them. -/
def printed (tokens : List Token) : String :=
  " ".intercalate (tokens.map fun t => spelling t.kind)

/-- Sound tokens are spelled by nothing else. -/
theorem spelling_of_spells {kind : TokenKind} {text : List Char} (spelled : Spells kind text)
    (sound : isSound kind = true) : (spelling kind).toList = text := by
  cases kind with
  | ident | literal | keyword | symbol => exact spelled
  | invalid | unterminatedString | unterminatedComment => cases sound
  | eof => cases spelled

/-- The token of a call stands on its own, an inserted semicolon as a written one. -/
theorem next_starts {s : LexState} (running : s.next.1.kind.isFinal = false)
    (sound : isSound s.next.1.kind = true) {more : List Char} (parted : Parted more) :
    Starts s.next.1.kind (spelling s.next.1.kind).toList more := by
  have comes := next_comes s
  generalize Trivia.skip .between s.rest = t at comes
  generalize s.next = found at *
  cases comes with
  | statementEnd => exact starts_symbol .semi parted
  | textEnd => cases closed : t.closed <;> simp [closed, TokenKind.isFinal] at running
  | token behind =>
    rw [spelling_of_spells (lexeme_spells _ _) sound]
    exact lexeme_starts _ _ sound parted

/-- Where the end of the text is given, no semicolon is due. -/
theorem quiet_of_ended {s : LexState} (ended : s.next.1.kind = .eof) : s.afterStatement = false := by
  have comes := next_comes s
  generalize Trivia.skip .between s.rest = t at comes
  generalize s.next = found at *
  cases comes with
  | statementEnd => cases ended
  | textEnd _ quiet =>
    apply quiet
    cases closed : t.closed with
    | true => rfl
    | false => simp [closed] at ended
  | token => exact absurd ended (lexeme_running _ _).1

/-- The text of tokens behind each other. -/
def joined (tokens : List Token) : List Char :=
  [' '].intercalate (tokens.map fun t => (spelling t.kind).toList)

theorem toList_printed (tokens : List Token) : (printed tokens).toList = joined tokens := by
  rw [printed, String.toList_intercalate, List.map_map]
  rfl

/-- What stands behind the first of some tokens. -/
theorem joined_cons (t : Token) (ts : List Token) : ∃ more,
    joined (t :: ts) = (spelling t.kind).toList ++ more ∧ Parted more ∧
      (∃ gap, more = gap ++ joined ts ∧ Skipped true gap (joined ts) ∧ '\n' ∉ gap) := by
  cases ts with
  | nil => exact ⟨[], by simp [joined], by simp [Parted], [], rfl, .nothing, by simp⟩
  | cons u us =>
    refine ⟨' ' :: joined (u :: us), ?_, by simp [Parted, space_divides], [' '], rfl, ?_, by decide⟩
    · rw [joined, List.map_cons, List.map_cons, List.intercalate_cons_cons, List.append_assoc]
      rfl
    · exact .blank (by decide) .nothing

/-- In front of its printed tokens, a state gives them again. -/
theorem run_printed {s : LexState} (sound : ∀ t ∈ s.run.tokens, isSound t.kind = true)
    (ended : s.run.last.kind = .eof) {s' : LexState}
    (before : Before s.afterStatement (joined s.run.tokens) s') :
    s'.run.tokens.map (·.kind) = s.run.tokens.map (·.kind) ∧ s'.run.last.kind = .eof := by
  fun_induction LexState.run s generalizing s' with
  | case1 s final =>
    rw [quiet_of_ended ended] at before
    have last := next_ended before
    rw [run_final (by rw [last]; rfl)]
    exact ⟨rfl, last⟩
  | case2 s running stream ih =>
    obtain ⟨own, others⟩ := List.forall_mem_cons.mp sound
    obtain ⟨more, text, parted, gap, split, skips, sameLine⟩ := joined_cons s.next.1 s.next.2.run.tokens
    rw [text] at before
    obtain ⟨place, offset, next⟩ := (next_starts running own parted).next before
    have behind : Before s.next.2.afterStatement (gap ++ joined s.next.2.run.tokens)
        ⟨offset, more, s.next.1.kind.endsStatement⟩ := by
      rw [← split, next_afterStatement]
      exact before_here ..
    obtain ⟨kinds, last⟩ := ih others ended (behind.skipped skips fun _ => sameLine)
    rw [run_running (by rw [next]; exact running), next, List.map_cons, kinds]
    exact ⟨rfl, last⟩

/-- Printed tokens do not start with a byte order mark. -/
theorem joined_unmarked {s : LexState} (sound : ∀ t ∈ s.run.tokens, isSound t.kind = true) :
    (joined s.run.tokens).head? ≠ some '\uFEFF' := by
  cases running : s.next.1.kind.isFinal with
  | true =>
    rw [run_final running]
    exact nofun
  | false =>
    rw [run_running running] at sound ⊢
    have own := sound _ (List.mem_cons_self ..)
    obtain ⟨more, text, parted, -⟩ := joined_cons s.next.1 s.next.2.run.tokens
    rw [text]
    exact (next_starts running own parted).unmarked own

theorem eof_of_isSound {kind : TokenKind} (final : kind.isFinal = true)
    (sound : isSound kind = true) : kind = .eof := by
  cases kind with
  | eof => rfl
  | unterminatedComment => cases sound
  | _ => cases final

/-- The tokens of a text without faults, printed with single spaces between them, are lexed to the same
kinds with the same payloads. -/
theorem printed_tokens_lexed (source : String)
    (sound : ∀ t ∈ tokenSequence source, isSound t.kind = true) :
    (tokenSequence (printed (tokenize source).tokens)).map (·.kind) =
      (tokenSequence source).map (·.kind) := by
  obtain ⟨running, last⟩ := List.forall_mem_append.mp sound
  have ended := eof_of_isSound (run_last_isFinal (.start source)) (last _ (List.mem_singleton_self _))
  have unmarked := joined_unmarked running
  rw [← tokenize, ← toList_printed] at unmarked
  have before : Before (LexState.start source).afterStatement (joined (tokenize source).tokens)
      (.start (printed (tokenize source).tokens)) := by
    rw [start_unmarked unmarked, toList_printed, start_quiet]
    exact before_here ..
  obtain ⟨kinds, again⟩ := run_printed running ended before
  calc (tokenSequence (printed (tokenize source).tokens)).map (·.kind)
      = (tokenize (printed (tokenize source).tokens)).tokens.map (·.kind) ++ [.eof] := by
        rw [tokenSequence, List.map_append, List.map_singleton, tokenize, again]
    _ = (tokenize source).tokens.map (·.kind) ++ [.eof] := by rw [tokenize, kinds, tokenize]
    _ = (tokenSequence source).map (·.kind) := by
        rw [tokenSequence, List.map_append, List.map_singleton, tokenize, ended]

/-- A text with hardly a blank, a comment and a raw string over two lines. -/
def crowded : String :=
  "x:=1..2&^0x1p-2/y++// z\nreturn \x60\n\x60"

/-- Of the two dots the second starts a number, and the semicolons at the line ends are written. -/
theorem crowded_lexed : (∀ t ∈ tokenSequence crowded, isSound t.kind = true) ∧
    printed (tokenize crowded).tokens = "x := 1 . .2 &^ 0x1p-2 / y ++ ; return \x60\n\x60 ;" ∧
    (tokenSequence (printed (tokenize crowded).tokens)).map (·.kind) =
      (tokenSequence crowded).map (·.kind) := by
  have sound : ∀ t ∈ tokenSequence crowded, isSound t.kind = true :=
    List.all_iff_forall_prop.mp (by decide +kernel)
  exact ⟨sound, by decide +kernel, printed_tokens_lexed crowded sound⟩

end PackageLoader.TokenPrinting
