import PackageLoader.Header
import PackageLoader.Proofs.StatementEnds

/-! The package clause stands on its own. Of the text behind its line only the white space and comments
in front of the next token are looked at, since a semicolon is inserted when they are skipped. A block
comment among them that is never closed takes the semicolon away, and nothing else does. -/
namespace PackageLoader.ClauseAlone
open StatementEnds Text TokenText

/-! ## Words -/

/-- The blanks outside ASCII. -/
def wideBlanks : CharRanges :=
  [(0x85, 0x85), (0xA0, 0xA0), (0x1680, 0x1680), (0x2000, 0x200A), (0x2028, 0x2029),
    (0x202F, 0x202F), (0x205F, 0x205F), (0x3000, 0x3000)]

theorem covers_wideBlanks {c : Char} (white : isBlank c = true) (wide : 0x80 ≤ c.toNat) :
    ∃ range ∈ wideBlanks, range.1 ≤ c.toNat ∧ c.toNat ≤ range.2 := by
  simp only [isBlank, Bool.or_eq_true, Bool.and_eq_true, decide_eq_true_eq, beq_iff_eq] at white
  simp only [wideBlanks, List.mem_cons, List.not_mem_nil, or_false, exists_eq_or_imp, exists_eq_left]
  omega

theorem letters_apart : (letterRanges.all fun letters =>
    wideBlanks.all fun blanks => letters.2 < blanks.1 || blanks.2 < letters.1) = true := by
  decide +kernel

theorem isAlpha_bounds {c : Char} (alpha : c.isAlpha = true) :
    (0x41 ≤ c.toNat ∧ c.toNat ≤ 0x5A) ∨ (0x61 ≤ c.toNat ∧ c.toNat ≤ 0x7A) := by
  have either : (decide (c.val ≥ 'A'.val ∧ c.val ≤ 'Z'.val) ||
      (decide (c.val ≥ 'a'.val) && decide (c.val ≤ 'z'.val))) = true := alpha
  simp only [Bool.or_eq_true, Bool.and_eq_true, decide_eq_true_eq] at either
  rcases either with ⟨above, below⟩ | ⟨above, below⟩
  · exact .inl ⟨UInt32.le_iff_toNat_le.mp above, UInt32.le_iff_toNat_le.mp below⟩
  · exact .inr ⟨UInt32.le_iff_toNat_le.mp above, UInt32.le_iff_toNat_le.mp below⟩

theorem isLetter_of_isBlank {c : Char} (white : isBlank c = true) : isLetter c = false := by
  rw [Bool.eq_false_iff]
  intro letter
  unfold isLetter at letter
  split at letter
  · rename_i ascii
    simp only [isBlank, Bool.or_eq_true, Bool.and_eq_true, decide_eq_true_eq, beq_iff_eq] at white
    have bounds := isAlpha_bounds letter
    omega
  · rename_i wide
    obtain ⟨blanks, blank, above, below⟩ := covers_wideBlanks white (Nat.le_of_not_lt wide)
    obtain ⟨letters, member, covered⟩ := List.any_eq_true.mp letter
    have apart := List.all_eq_true.mp (List.all_eq_true.mp letters_apart _ member) _ blank
    simp only [Bool.and_eq_true, Bool.or_eq_true, decide_eq_true_eq] at covered apart
    omega

theorem takeWhile_word {rest more : List Char} (parts : ∀ d ∈ rest, isIdentPart d = true)
    (ends : ∀ d ∈ more.head?, isIdentPart d = false) :
    (rest ++ more).takeWhile isIdentPart = rest ∧ (rest ++ more).dropWhile isIdentPart = more := by
  rw [List.takeWhile_append_of_pos parts, List.dropWhile_append_of_pos parts]
  cases more with
  | nil => simp
  | cons d more => simp [ends d rfl]

theorem lexeme_word {c : Char} {rest more : List Char} (start : isIdentStart c = true)
    (parts : ∀ d ∈ rest, isIdentPart d = true) (ends : ∀ d ∈ more.head?, isIdentPart d = false) :
    lexeme c (rest ++ more) = ⟨wordKind (String.ofList (c :: rest)), c :: rest, more⟩ := by
  obtain ⟨taken, dropped⟩ := takeWhile_word parts ends
  rw [lexeme, if_pos start, taken, dropped]

theorem skip_word {c : Char} (start : isIdentStart c = true) (rest : List Char) :
    Trivia.skip .between (c :: rest) = ⟨[], false, true, c :: rest⟩ := by
  have filled : isBlank c = false := by
    rw [Bool.eq_false_iff]
    intro white
    rw [isIdentStart, isLetter_of_isBlank white, Bool.false_or, decide_eq_true_eq] at start
    rw [start] at white
    exact absurd white (by decide)
  have noSlash : c ≠ '/' := by
    rintro rfl
    exact absurd start (by decide)
  rw [Trivia.skip.eq_def]
  split <;> simp_all

/-- A word behind skipped text is the next token. -/
theorem next_word (offset : Nat) (gap : List Char) {c : Char} (rest more : List Char)
    (skipped : Skipped true gap (c :: (rest ++ more))) (start : isIdentStart c = true)
    (parts : ∀ d ∈ rest, isIdentPart d = true) (ends : ∀ d ∈ more.head?, isIdentPart d = false) :
    LexState.next ⟨offset, gap ++ c :: (rest ++ more), false⟩ =
      (⟨wordKind (String.ofList (c :: rest)), .ofOffsets (offset + utf8Length gap)
        (offset + utf8Length (gap ++ c :: rest))⟩,
      ⟨offset + utf8Length (gap ++ c :: rest), more,
        (wordKind (String.ofList (c :: rest))).endsStatement⟩) := by
  have trivia : Trivia.skip .between (gap ++ c :: (rest ++ more)) =
      ⟨gap, decide ('\n' ∈ gap), true, c :: (rest ++ more)⟩ := by
    rw [skipped.skip_append, if_pos rfl, skip_word start, pushAll_eq]
    simp
  have comes := next_comes ⟨offset, gap ++ c :: (rest ++ more), false⟩
  rw [trivia] at comes
  generalize LexState.next ⟨offset, gap ++ c :: (rest ++ more), false⟩ = found at comes
  cases comes with
  | statementEnd _ _ statement => cases statement
  | textEnd rest => cases rest
  | token behind =>
    cases behind
    rw [lexeme_word start parts ends, utf8Length_append, Nat.add_assoc]

/-! ## Token sequences -/

theorem run_running {s : LexState} (running : s.next.1.kind.isFinal = false) :
    s.run = ⟨s.next.1 :: s.next.2.run.tokens, s.next.2.run.last⟩ := by
  rw [LexState.run]
  split
  · rename_i final
    cases running.symm.trans final
  · rfl

theorem run_final {s : LexState} (final : s.next.1.kind.isFinal = true) : s.run = ⟨[], s.next.1⟩ := by
  rw [LexState.run]
  split
  · rfl
  · rename_i running
    cases running.symm.trans final

/-! ## The line of a clause -/

/-- A word that is no keyword. -/
def IsName (name : String) : Prop :=
  Keyword.ofText? name = none ∧ ∃ c rest, name.toList = c :: rest ∧ isIdentStart c = true ∧
    ∀ d ∈ rest, isIdentPart d = true

/-- White space and comments, of which the last is a block comment that is never closed. -/
def LeftOpen (text : String) : Prop :=
  Skipped false text.toList []

theorem leftOpen_iff (text : String) :
    LeftOpen text ↔ (Trivia.skip .between text.toList).closed = false := by
  constructor
  · intro leftOpen
    have skipped := leftOpen.skip_append
    rw [List.append_nil] at skipped
    rw [skipped, pushAll_eq]
    rfl
  · intro unclosed
    have skipped : Skipped _ _ _ := skip_found .between text.toList
    have whole := Trivia.text_append_rest .between text.toList
    rw [unclosed] at skipped
    have ended : (Trivia.skip .between text.toList).rest = [] := by
      by_cases more : (Trivia.skip .between text.toList).rest = []
      · exact more
      · cases skipped.closed_of_rest more
    rw [ended, List.append_nil] at whole
    rwa [ended, whole] at skipped

instance (text : String) : Decidable (LeftOpen text) :=
  decidable_of_iff _ (leftOpen_iff text).symm

/-- The state behind the name of a clause that ends its line. -/
def behindName (name behind : String) : LexState :=
  ⟨8 + utf8Length name.toList, '\n' :: behind.toList, true⟩

theorem tokenize_clause {name : String} (named : IsName name) (behind : String) :
    tokenize ("package " ++ name ++ "\n" ++ behind) =
      ⟨⟨.keyword .package, .ofOffsets 0 7⟩ ::
          ⟨.ident name, .ofOffsets 8 (8 + utf8Length name.toList)⟩ ::
          (behindName name behind).run.tokens,
        (behindName name behind).run.last⟩ := by
  obtain ⟨noKeyword, c, rest, spelled, start, parts⟩ := named
  have text : ("package " ++ name ++ "\n" ++ behind).toList =
      'p' :: ("ackage".toList ++ ' ' :: c :: (rest ++ '\n' :: behind.toList)) := by
    simp [spelled]
  have started : LexState.start ("package " ++ name ++ "\n" ++ behind) =
      ⟨0, [] ++ 'p' :: ("ackage".toList ++ ' ' :: c :: (rest ++ '\n' :: behind.toList)), false⟩ := by
    rw [LexState.start, text]
    rfl
  have first : LexState.next (.start ("package " ++ name ++ "\n" ++ behind)) =
      (⟨.keyword .package, .ofOffsets 0 7⟩,
        ⟨7, [' '] ++ c :: (rest ++ '\n' :: behind.toList), false⟩) := by
    have parts : ∀ d ∈ "ackage".toList, isIdentPart d = true := List.all_eq_true.mp (by decide)
    rw [started, next_word 0 [] _ _ .nothing (by decide) parts (by rintro _ ⟨⟩; decide)]
    rfl
  have second : LexState.next ⟨7, [' '] ++ c :: (rest ++ '\n' :: behind.toList), false⟩ =
      (⟨.ident name, .ofOffsets 8 (8 + utf8Length name.toList)⟩, behindName name behind) := by
    have ident : wordKind (String.ofList (c :: rest)) = .ident name := by
      rw [← spelled, String.ofList_toList, wordKind, noKeyword]
    have length : 7 + utf8Length ([' '] ++ c :: rest) = 8 + utf8Length name.toList := by
      rw [utf8Length_append, ← Nat.add_assoc, spelled]
      rfl
    rw [next_word 7 [' '] _ _ (.blank (by decide) .nothing) start parts (by rintro _ ⟨⟩; decide),
      ident, length]
    rfl
  rw [tokenize, run_running (by rw [first]; rfl), first]
  simp only
  rw [run_running (by rw [second]; rfl), second]

/-! ## The clause -/

/-- A semicolon is inserted behind the name, unless what follows is left open. -/
theorem behindName_next (name behind : String) :
    (¬ LeftOpen behind → (behindName name behind).next.1.kind = .semi) ∧
      (LeftOpen behind → (behindName name behind).next.1.kind = .unterminatedComment) := by
  have skips : Trivia.skip .between ('\n' :: behind.toList) =
      Trivia.push '\n' (Trivia.skip .between behind.toList) := skip_blank (by decide) _
  constructor
  · intro shut
    rw [leftOpen_iff, Bool.not_eq_false] at shut
    rw [next_statementEnd (s := behindName name behind) rfl]
    · rw [behindName, skips]
      exact shut
    · rw [behindName, skips]
      exact .inl ((newline_push _ _).mpr (.inl rfl))
  · intro leftOpen
    apply next_unclosed
    rw [behindName, skips]
    exact (leftOpen_iff behind).mp leftOpen

section Reading

variable {name : String} {start place : Span} {t last : Token}

theorem readHeader_separated {rest : List Token} (semi : t.kind = .semi) :
    readHeader .clauseOnly
        ⟨⟨.keyword .package, start⟩ :: ⟨.ident name, place⟩ :: t :: rest, last⟩ =
      ⟨some ⟨⟨name, start.through place⟩, []⟩, none⟩ := by
  simp only [readHeader, readPackageClause, readKind, semi, bind, Except.bind, if_pos]

theorem readHeader_ended :
    readHeader .clauseOnly ⟨[⟨.keyword .package, start⟩, ⟨.ident name, place⟩], last⟩ =
      ⟨none, some (.unexpected .separator last)⟩ := rfl

theorem message_comment (comment : last.kind = .unterminatedComment) :
    (HeaderError.unexpected .separator last).message =
      "expected ';', found 'unterminated comment'" := by
  obtain ⟨kind, span⟩ := last
  cases comment
  rfl

end Reading

/-- The clause is read without the text behind its line, whatever that is, unless it is left open. Then
there is no clause, and the comment is the only error. -/
theorem clause_reads_alone (name behind : String) (named : IsName name) :
    (¬ LeftOpen behind → parseHeader .clauseOnly ("package " ++ name ++ "\n" ++ behind) =
      ⟨some ⟨⟨name, .ofOffsets 0 (8 + utf8Length name.toList)⟩, []⟩, none⟩) ∧
    (LeftOpen behind → ∃ e, parseHeader .clauseOnly ("package " ++ name ++ "\n" ++ behind) =
      ⟨none, some e⟩ ∧ e.message = "expected ';', found 'unterminated comment'") := by
  rw [parseHeader, tokenize_clause named]
  obtain ⟨shut, leftOpen⟩ := behindName_next name behind
  constructor
  · intro closed
    have semi := shut closed
    rw [run_running (by rw [semi]; rfl)]
    exact readHeader_separated semi
  · intro unclosed
    have comment := leftOpen unclosed
    rw [run_final (by rw [comment]; rfl)]
    exact ⟨_, readHeader_ended, message_comment comment⟩

/-- A clause with text behind it that is no token. -/
theorem invalid_text_behind : IsName "a" ∧ ¬ LeftOpen "'\\\n//" ∧
    parseHeader .clauseOnly ("package " ++ "a" ++ "\n" ++ "'\\\n//") =
      ⟨some ⟨⟨"a", .ofOffsets 0 9⟩, []⟩, none⟩ := by
  have named : IsName "a" := ⟨by decide, 'a', [], rfl, by decide, by simp⟩
  have shut : ¬ LeftOpen "'\\\n//" := by decide
  exact ⟨named, shut, (clause_reads_alone "a" "'\\\n//" named).1 shut⟩

/-- A comment that is still open behind the line of a clause takes the clause away. -/
theorem open_comment_hides_clause : IsName "a" ∧
    ¬ ((parseHeader .clauseOnly ("package " ++ "a" ++ "\n" ++ "/*")).packageName? = some "a" ∧
      (parseHeader .clauseOnly ("package " ++ "a" ++ "\n" ++ "/*")).error? = none) := by
  refine ⟨⟨by decide, 'a', [], rfl, by decide, by simp⟩, ?_⟩
  decide +kernel

end PackageLoader.ClauseAlone
