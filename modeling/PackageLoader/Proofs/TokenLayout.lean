import PackageLoader.Proofs.TokenText

/-! Where the tokens of a source stand. A call of the lexer splits the rest of the source into text
that is skipped, the text of its token and the rest behind it, so over all calls no text is lost or
read twice. A call that is not final uses up text or the chance of a semicolon, so a final one comes
in time, and the calls behind it find nothing more. -/
namespace PackageLoader.TokenLayout
open Text TokenText

/-! ## Calls -/

/-- The state behind a number of calls. -/
def after (s : LexState) : Nat → LexState
  | 0 => s
  | i + 1 => (after s i).next.2

/-- The state behind some calls on a source. -/
def state (source : String) (i : Nat) : LexState :=
  after (.start source) i

/-- The token that a call on a source gives. Calls are numbered from zero. -/
def call (source : String) (i : Nat) : Token :=
  (state source i).next.1

theorem after_next (s : LexState) (i : Nat) : after s.next.2 i = after s (i + 1) := by
  induction i with
  | zero => rfl
  | succ i ih => exact congrArg (·.next.2) ih

/-- A final token comes after no more calls than the state bounds. -/
theorem exists_final (s : LexState) : ∃ k ≤ s.remaining,
    (∀ i < k, (after s i).next.1.kind.isFinal = false) ∧
    (after s k).next.1.kind.isFinal = true := by
  cases more : s.next.1.kind.isFinal with
  | true => exact ⟨0, Nat.zero_le _, by simp, more⟩
  | false =>
    have shorter := LexState.remaining_next_lt more
    obtain ⟨k, within, running, final⟩ := exists_final s.next.2
    refine ⟨k + 1, by omega, ?_, by rwa [← after_next]⟩
    intro i before
    cases i with
    | zero => exact more
    | succ i =>
      rw [← after_next]
      exact running i (by omega)
termination_by s.remaining

/-- Lexing collects the calls up to the first final one. -/
theorem run_eq {s : LexState} {k : Nat}
    (running : ∀ i < k, (after s i).next.1.kind.isFinal = false)
    (final : (after s k).next.1.kind.isFinal = true) :
    s.run = ⟨(List.range k).map fun i => (after s i).next.1, (after s k).next.1⟩ := by
  induction k generalizing s with
  | zero =>
    rw [LexState.run]
    split
    · rfl
    · rename_i more
      cases more.symm.trans final
  | succ k ih =>
    have first := running 0 (by omega)
    have behind (i : Nat) (before : i < k) : (after s.next.2 i).next.1.kind.isFinal = false := by
      rw [after_next]
      exact running (i + 1) (by omega)
    have others := ih behind (by rwa [after_next])
    rw [LexState.run]
    split
    · rename_i last
      cases last.symm.trans first
    · simp only [others, after_next, List.range_succ_eq_map, List.map_cons, List.map_map]
      rfl

theorem start_remaining (source : String) :
    (LexState.start source).remaining ≤ 2 * source.length := by
  unfold LexState.start LexState.remaining
  rw [← String.length_toList]
  split
  · rename_i rest joined
    simp only [joined, List.length_cons, Bool.toNat_false]
    omega
  · exact Nat.le_refl _

/-! ## One call -/

/-- How a call splits the rest of the source: what it skips, the text of its token, and the rest
that the next state starts with. -/
structure Split (s : LexState) (t : Token) (next : LexState) (gap text : List Char) : Prop where
  rest : s.rest = gap ++ text ++ next.rest
  span : t.span = .ofOffsets (s.offset + utf8Length gap) (s.offset + utf8Length (gap ++ text))
  offset : next.offset = s.offset + utf8Length (gap ++ text)
  skipped : Skipped (t.kind ≠ .unterminatedComment) gap (text ++ next.rest)
  spelled : text = [] ∧ (t.kind = .semi ∨ t.kind.isFinal = true) ∨ text ≠ [] ∧ Spells t.kind text
  ended : t.kind.isFinal = true → next.rest = [] ∧ next.afterStatement = false

theorem next_split (s : LexState) : ∃ gap text, Split s s.next.1 s.next.2 gap text := by
  have whole := Trivia.text_append_rest .between s.rest
  have skipped : Skipped _ _ _ := skip_found .between s.rest
  unfold LexState.next
  generalize Trivia.skip .between s.rest = t at whole skipped
  obtain ⟨gap, newline, closed, behind⟩ := t
  simp only at whole skipped ⊢
  -- A semicolon stands for a line end, the text has ended, or a token starts.
  split
  · rename_i inserted
    simp only [Bool.and_eq_true] at inserted
    rw [inserted.1.1] at skipped
    exact ⟨gap, [], by simp [whole], by simp [Span.point], by simp, skipped, .inl ⟨rfl, .inl rfl⟩,
      by simp [TokenKind.isFinal]⟩
  · cases behind with
    | nil =>
      refine ⟨gap, [], by simp [whole], by simp [Span.point], by simp, ?_, .inl ⟨rfl, .inr ?_⟩,
        by simp⟩
      · cases closed <;> exact skipped
      · cases closed <;> rfl
    | cons c rest =>
      have word := lexeme_append c rest
      have spelled := lexeme_spells c rest
      have nonempty := lexeme_text_ne_nil c rest
      simp only
      generalize lexeme c rest = found at word spelled nonempty ⊢
      have running := spelled.not_final
      have closes : closed = true := skipped.closed_of_rest (by simp)
      rw [← word, closes] at skipped
      refine ⟨gap, found.text, ?_, ?_, ?_, ?_, .inr ⟨nonempty, spelled⟩, ?_⟩
      · rw [List.append_assoc, word, whole]
      · rw [utf8Length_append, Nat.add_assoc]
      · rw [utf8Length_append, Nat.add_assoc]
      · have noComment : found.kind ≠ .unterminatedComment := by
          intro comment
          rw [comment] at running
          cases running
        simpa [noComment] using skipped
      · intro final
        cases running.symm.trans final

theorem next_at_end {s : LexState} (rest : s.rest = []) (quiet : s.afterStatement = false) :
    s.next = (⟨.eof, .point s.offset⟩, ⟨s.offset, [], false⟩) := by
  have nothing : Trivia.skip .between [] = ⟨[], false, true, []⟩ := rfl
  rw [LexState.next, rest, quiet, nothing, Bool.and_false]
  rfl

/-! ## All calls on a source -/

/-- One byte order mark in front of a source is no part of what is lexed. -/
inductive Mark : List Char → Prop where
  | absent : Mark []
  | present : Mark ['\uFEFF']

theorem start_rest (source : String) : ∃ mark, Mark mark ∧
    source.toList = mark ++ (LexState.start source).rest ∧
    (LexState.start source).offset = utf8Length mark := by
  unfold LexState.start
  split
  · rename_i rest marked
    exact ⟨_, .present, marked, rfl⟩
  · exact ⟨[], .absent, rfl, rfl⟩

/-- The span covers this text of the source, in front of the rest. -/
def Covers (source : String) (span : Span) (text rest : List Char) : Prop :=
  ∃ before, source.toList = before ++ text ++ rest ∧ span.start.toNat = utf8Length before ∧
    span.stop.toNat = utf8Length (before ++ text)

theorem utf8Length_eq_zero {text : List Char} : utf8Length text = 0 ↔ text = [] := by
  cases text with
  | nil => exact ⟨fun _ => rfl, fun _ => rfl⟩
  | cons c rest =>
    have positive : 0 < utf8Length [c] := by simpa [utf8Length] using c.utf8Size_pos
    rw [← List.singleton_append, utf8Length_append]
    simp
    omega

theorem Covers.length {source : String} {span : Span} {text rest : List Char}
    (covers : Covers source span text rest) : span.length = utf8Length text := by
  obtain ⟨before, -, start, stop⟩ := covers
  rw [Span.length, start, stop, utf8Length_append]
  omega

theorem Covers.isEmpty_iff {source : String} {span : Span} {text rest : List Char}
    (covers : Covers source span text rest) : span.isEmpty = true ↔ text = [] := by
  rw [Span.isEmpty, covers.length, beq_iff_eq, utf8Length_eq_zero]

section Source

variable (source : String)

/-- The text in front of a state is what its offset counts. -/
theorem state_rest (i : Nat) : ∃ before, source.toList = before ++ (state source i).rest ∧
    (state source i).offset = utf8Length before := by
  induction i with
  | zero =>
    obtain ⟨mark, -, joined, offset⟩ := start_rest source
    exact ⟨mark, joined, offset⟩
  | succ i ih =>
    obtain ⟨before, joined, offset⟩ := ih
    obtain ⟨gap, text, split⟩ := next_split (state source i)
    refine ⟨before ++ (gap ++ text), ?_, ?_⟩
    · rw [joined, split.rest, List.append_assoc before]
      rfl
    · rw [utf8Length_append, ← offset]
      exact split.offset

theorem offset_mono {i j : Nat} (le : i ≤ j) :
    (state source i).offset ≤ (state source j).offset := by
  induction le with
  | refl => exact Nat.le_refl _
  | @step j _ ih =>
    obtain ⟨gap, text, split⟩ := next_split (state source j)
    exact Nat.le_trans ih (Nat.le_trans (Nat.le_add_right _ _) (Nat.le_of_eq split.offset.symm))

theorem offset_le (i : Nat) : (state source i).offset ≤ utf8Length source.toList := by
  obtain ⟨before, joined, offset⟩ := state_rest source i
  rw [joined, utf8Length_append, offset]
  exact Nat.le_add_right _ _

/-- Behind a final token nothing is left. -/
theorem state_ended {k : Nat} (final : (call source k).kind.isFinal = true) {i : Nat}
    (behind : k < i) : (state source i).rest = [] ∧ (state source i).afterStatement = false := by
  induction behind with
  | refl =>
    obtain ⟨gap, text, split⟩ := next_split (state source k)
    exact split.ended final
  | @step i _ ih =>
    have same := congrArg Prod.snd (next_at_end ih.1 ih.2)
    exact ⟨congrArg LexState.rest same, congrArg LexState.afterStatement same⟩

/-- Where nothing is left, the offset is the end of the source. -/
theorem offset_ended {i : Nat} (ended : (state source i).rest = []) :
    (state source i).offset = utf8Length source.toList := by
  obtain ⟨before, joined, offset⟩ := state_rest source i
  rw [joined, ended, List.append_nil, offset]

variable (small : utf8Length source.toList < UInt32.size)

include small in
/-- Offsets into a small source are kept whole. -/
theorem toNat_ofNat {offset : Nat} (within : offset ≤ utf8Length source.toList) :
    (BytePos.ofNat offset).toNat = offset :=
  UInt32.toNat_ofNat'.trans (Nat.mod_eq_of_lt (Nat.lt_of_le_of_lt within small))

include small in
theorem covers_offsets (before text rest : List Char)
    (joined : source.toList = before ++ text ++ rest) :
    Covers source (.ofOffsets (utf8Length before) (utf8Length (before ++ text))) text rest := by
  have whole := congrArg utf8Length joined
  simp only [utf8Length_append] at whole
  refine ⟨before, joined, toNat_ofNat source small ?_, toNat_ofNat source small ?_⟩
  · omega
  · rw [utf8Length_append]
    omega

/-- A call in the source: the text in front of its state, the text that it skips, the text of its
token and the rest. -/
structure Placed (i : Nat) (before gap text rest : List Char) : Prop where
  joined : source.toList = before ++ gap ++ text ++ rest
  span : (call source i).span =
    .ofOffsets (utf8Length (before ++ gap)) (utf8Length (before ++ gap ++ text))
  next : (state source (i + 1)).offset = utf8Length (before ++ gap ++ text)
  skipped : Skipped ((call source i).kind ≠ .unterminatedComment) gap (text ++ rest)
  spelled : text = [] ∧ ((call source i).kind = .semi ∨ (call source i).kind.isFinal = true) ∨
    text ≠ [] ∧ Spells (call source i).kind text

theorem call_placed {i : Nat} {before : List Char}
    (joined : source.toList = before ++ (state source i).rest)
    (offset : (state source i).offset = utf8Length before) :
    ∃ gap text rest, Placed source i before gap text rest := by
  obtain ⟨gap, text, split⟩ := next_split (state source i)
  have stop : utf8Length before + utf8Length (gap ++ text) =
      utf8Length (before ++ gap ++ text) := by
    rw [← utf8Length_append, List.append_assoc]
  exact ⟨gap, text, (state source i).next.2.rest, {
    joined := by rw [joined, split.rest, List.append_assoc, List.append_assoc, List.append_assoc]
    span := by rw [call, split.span, offset, stop, utf8Length_append before gap]
    next := by rw [← stop, ← offset]; exact split.offset
    skipped := split.skipped
    spelled := split.spelled }⟩

/-- The calls on a source of which this one is the first that gives a final token. It comes in time,
and those behind it give the end of the source. Up to it, the spans stand in order between
characters, a token that is neither inserted nor final covers text that spells it, and the text
between the spans is skipped: one byte order mark, white space and comments. -/
structure Lossless (k : Nat) : Prop where
  bounded : k ≤ 2 * source.length
  running : ∀ i < k, (call source i).kind.isFinal = false
  final : (call source k).kind.isFinal = true
  behind : ∀ i > k, (call source i).kind = .eof ∧ Covers source (call source i).span [] []
  ordered : ∀ i j, i < j → j ≤ k →
    (call source i).span.stop.toNat ≤ (call source j).span.start.toNat
  covered : ∀ i ≤ k, ∃ text rest, Covers source (call source i).span text rest ∧
    ((call source i).isInserted = false → (call source i).kind.isFinal = false →
      (call source i).span.isEmpty = false ∧ Spells (call source i).kind text)
  front : ∃ mark gap rest, Mark mark ∧
    Covers source ⟨.ofNat 0, (call source 0).span.start⟩ (mark ++ gap) rest ∧
    Skipped ((call source 0).kind ≠ .unterminatedComment) gap rest
  between : ∀ i < k, ∃ gap rest,
    Covers source ⟨(call source i).span.stop, (call source (i + 1)).span.start⟩ gap rest ∧
    Skipped ((call source (i + 1)).kind ≠ .unterminatedComment) gap rest
  ended : (call source k).span.stop.toNat = utf8Length source.toList
  tokenized : tokenize source = ⟨(List.range k).map (call source), call source k⟩

include small in
theorem placed_covered {i : Nat} {before gap text rest : List Char}
    (placed : Placed source i before gap text rest) :
    Covers source (call source i).span text rest ∧
      ((call source i).isInserted = false → (call source i).kind.isFinal = false →
        (call source i).span.isEmpty = false ∧ Spells (call source i).kind text) := by
  have covers : Covers source (call source i).span text rest := by
    rw [placed.span]
    exact covers_offsets source small (before ++ gap) text rest placed.joined
  refine ⟨covers, fun written running => ?_⟩
  rcases placed.spelled with ⟨empty, semi | final⟩ | ⟨nonempty, spelled⟩
  · rw [Token.isInserted, semi, covers.isEmpty_iff.mpr empty] at written
    cases written
  · cases running.symm.trans final
  · exact ⟨Bool.eq_false_iff.mpr (mt covers.isEmpty_iff.mp nonempty), spelled⟩

include small in
theorem gap_covered (i : Nat) : ∃ gap rest,
    Covers source ⟨.ofNat (state source i).offset, (call source i).span.start⟩ gap rest ∧
    Skipped ((call source i).kind ≠ .unterminatedComment) gap rest := by
  obtain ⟨before, joined, offset⟩ := state_rest source i
  obtain ⟨gap, text, rest, placed⟩ := call_placed source joined offset
  refine ⟨gap, text ++ rest, ?_, placed.skipped⟩
  rw [placed.span, offset]
  refine covers_offsets source small before gap (text ++ rest) ?_
  rw [placed.joined, List.append_assoc _ text]

include small in
theorem offset_le_start (i : Nat) : (state source i).offset ≤ (call source i).span.start.toNat := by
  obtain ⟨gap, rest, ⟨before, -, start, stop⟩, -⟩ := gap_covered source small i
  rw [toNat_ofNat source small (offset_le source i)] at start
  simp only at stop
  rw [start, stop, utf8Length_append]
  exact Nat.le_add_right _ _

/-- A span stops where the next state starts. -/
theorem span_stop (i : Nat) : (call source i).span.stop = .ofNat (state source (i + 1)).offset := by
  obtain ⟨before, joined, offset⟩ := state_rest source i
  obtain ⟨gap, text, rest, placed⟩ := call_placed source joined offset
  rw [placed.span, placed.next]
  rfl

include small in
theorem stop_toNat (i : Nat) : (call source i).span.stop.toNat = (state source (i + 1)).offset := by
  rw [span_stop]
  exact toNat_ofNat source small (offset_le source (i + 1))

include small in
/-- The byte order mark and the text skipped behind it are in front of the first token. -/
theorem front_covered : ∃ mark gap rest, Mark mark ∧
    Covers source ⟨.ofNat 0, (call source 0).span.start⟩ (mark ++ gap) rest ∧
    Skipped ((call source 0).kind ≠ .unterminatedComment) gap rest := by
  obtain ⟨mark, is_mark, joined, offset⟩ := start_rest source
  obtain ⟨gap, text, rest, placed⟩ := call_placed source (i := 0) joined offset
  refine ⟨mark, gap, text ++ rest, is_mark, ?_, placed.skipped⟩
  rw [placed.span]
  refine covers_offsets source small [] (mark ++ gap) (text ++ rest) ?_
  rw [placed.joined, List.append_assoc _ text]
  rfl

end Source

/-- Lexing ends in time and loses no text. -/
theorem lexing_lossless (source : String) (small : utf8Length source.toList < UInt32.size) :
    ∃ k, Lossless source k := by
  obtain ⟨k, within, running, final⟩ := exists_final (.start source)
  refine ⟨k, {
    bounded := Nat.le_trans within (start_remaining source)
    running := running
    final := final
    behind := ?_
    ordered := ?_
    covered := ?_
    front := front_covered source small
    between := ?_
    ended := ?_
    tokenized := run_eq running final }⟩
  · intro i behind
    obtain ⟨rest, quiet⟩ := state_ended source final behind
    have token : call source i = ⟨.eof, .point (state source i).offset⟩ :=
      congrArg Prod.fst (next_at_end rest quiet)
    rw [token, offset_ended source rest]
    refine ⟨rfl, ?_⟩
    have covers := covers_offsets source small source.toList [] [] (by simp)
    rw [List.append_nil] at covers
    exact covers
  · intro i j before _
    rw [stop_toNat source small]
    exact Nat.le_trans (offset_mono source before) (offset_le_start source small j)
  · intro i _
    obtain ⟨before, joined, offset⟩ := state_rest source i
    obtain ⟨gap, text, rest, placed⟩ := call_placed source joined offset
    exact ⟨text, rest, placed_covered source small placed⟩
  · intro i _
    rw [span_stop]
    exact gap_covered source small (i + 1)
  · rw [stop_toNat source small]
    exact offset_ended source (state_ended source final (Nat.lt_succ_self k)).1

/-- A source with a byte order mark, letters of two bytes and a comment at its end. -/
theorem marked_source_lossless : utf8Length "\uFEFFpackage é // π".toList < UInt32.size ∧
    ∃ k, Lossless "\uFEFFpackage é // π" k :=
  ⟨by decide, lexing_lossless _ (by decide)⟩

end PackageLoader.TokenLayout
