import PackageLoader.Proofs.HeaderWriting

/-! Headers do not depend on the line ends. One lexer runs over a text and one over the same text with a
carriage return in front of every newline. Both give the same kinds of tokens, up to a literal with an
escaped or a raw line end if there is one. No reader of a header goes on behind such a literal, so what is
read up to there is the same. -/
namespace PackageLoader.LineEndings
open ClauseAlone HeaderWriting StatementEnds Text TokenLayout TokenText TokensApart

/-! ## Texts -/

/-- The text with a carriage return in front of every newline. -/
def carriage (cs : List Char) : List Char :=
  cs.flatMap fun c => if c = '\n' then ['\r', '\n'] else [c]

theorem carriage_newline (cs : List Char) : carriage ('\n' :: cs) = '\r' :: '\n' :: carriage cs := rfl

theorem carriage_cons {c : Char} (sameLine : c ≠ '\n') (cs : List Char) :
    carriage (c :: cs) = c :: carriage cs := by
  simp [carriage, sameLine]

theorem carriage_append (a b : List Char) : carriage (a ++ b) = carriage a ++ carriage b :=
  List.flatMap_append

theorem carriage_line {text : List Char} (sameLine : '\n' ∉ text) : carriage text = text := by
  induction text with
  | nil => rfl
  | cons c text ih =>
    rw [List.mem_cons, not_or] at sameLine
    rw [carriage_cons (Ne.symm sameLine.1), ih sameLine.2]

theorem mem_carriage {c : Char} {cs : List Char} (member : c ∈ cs) : c ∈ carriage cs := by
  refine List.mem_flatMap.mpr ⟨c, member, ?_⟩
  split <;> simp_all

theorem carriage_eq_nil {cs : List Char} : carriage cs = [] ↔ cs = [] := by
  cases cs with
  | nil => simp [carriage]
  | cons c cs => by_cases newline : c = '\n' <;> simp [carriage, newline]

/-- Other characters than those of line ends stand at the front if they stood there before. -/
theorem head_carriage {d : Char} (noReturn : d ≠ '\r') (noLine : d ≠ '\n') (cs : List Char) :
    (carriage cs).head? = some d ↔ cs.head? = some d := by
  cases cs with
  | nil => rfl
  | cons c cs =>
    by_cases newline : c = '\n'
    · rw [newline, carriage_newline]
      simp [noReturn.symm, noLine.symm]
    · rw [carriage_cons newline]
      rfl

theorem head_carriage_ne {d : Char} (noReturn : d ≠ '\r') (noLine : d ≠ '\n') {cs : List Char}
    (other : ∀ tail, cs = d :: tail → False) : (carriage cs).head? ≠ some d := by
  rw [ne_eq, head_carriage noReturn noLine]
  intro first
  obtain ⟨tail, same⟩ := List.head?_eq_some_iff.mp first
  exact other tail same

/-! ## White space and comments -/

def carried (t : Trivia) : Trivia :=
  ⟨carriage t.text, t.newline, t.closed, carriage t.rest⟩

theorem carried_newline (t : Trivia) :
    carried (.push '\n' t) = .push '\r' (.push '\n' (carried t)) := by
  simp [carried, Trivia.push, carriage_newline]

theorem carried_push {c : Char} (sameLine : c ≠ '\n') (t : Trivia) :
    carried (.push c t) = .push c (carried t) := by
  simp [carried, Trivia.push, carriage_cons sameLine]

/-- The same is skipped, with a carriage return in front of every newline. -/
theorem skip_carriage (mode : TriviaMode) (cs : List Char) :
    Trivia.skip mode (carriage cs) = carried (Trivia.skip mode cs) := by
  fun_induction Trivia.skip mode cs with
  | case1 | case2 | case3 => rfl
  | case4 rest ih =>
    rw [carried_push (by decide), carried_push (by decide), ← ih]
    rfl
  | case5 rest ih =>
    rw [carried_push (by decide), carried_push (by decide), ← ih]
    rfl
  | case6 c rest _ _ white ih =>
    by_cases newline : c = '\n'
    · rw [newline, carriage_newline, skip_blank (by decide), skip_blank (by decide), carried_newline, ih]
    · rw [carriage_cons newline, skip_blank white, carried_push newline, ih]
  | case7 c rest noLine noBlock filled =>
    have sameLine : c ≠ '\n' := by
      rintro rfl
      exact filled (by decide)
    rw [carriage_cons sameLine, skip_bare (Bool.eq_false_iff.mpr filled)]
    · simp [carried, carriage_cons sameLine]
      rfl
    · intro slash d first
      constructor <;> rintro rfl
      · exact head_carriage_ne (by decide) (by decide) (fun tail => noLine tail slash) first
      · exact head_carriage_ne (by decide) (by decide) (fun tail => noBlock tail slash) first
  | case8 c rest ih =>
    by_cases newline : c = '\n'
    · subst newline
      rw [if_pos rfl] at ih ⊢
      rw [carriage_newline, skip_line_cons, if_neg (by decide), skip_line_cons, if_pos rfl,
        carried_newline, ih]
    · rw [if_neg newline] at ih ⊢
      rw [carriage_cons newline, skip_line_cons, if_neg newline, carried_push newline, ih]
  | case9 rest ih =>
    rw [carried_push (by decide), carried_push (by decide), ← ih]
    rfl
  | case10 c rest noEnd ih =>
    by_cases newline : c = '\n'
    · rw [newline, carriage_newline, skip_block_cons (by simp), skip_block_cons (by simp), carried_newline, ih]
    · rw [carriage_cons newline, carried_push newline, ← ih]
      apply skip_block_cons
      intro star
      exact head_carriage_ne (by decide) (by decide) fun tail => noEnd tail star

/-! ## Scanners -/

theorem takeWhile_carriage {p : Char → Bool} (noReturn : p '\r' = false) (noLine : p '\n' = false)
    (cs : List Char) : (carriage cs).takeWhile p = cs.takeWhile p ∧
      (carriage cs).dropWhile p = carriage (cs.dropWhile p) := by
  induction cs with
  | nil => exact ⟨rfl, rfl⟩
  | cons c cs ih =>
    by_cases newline : c = '\n'
    · rw [newline, carriage_newline]
      simp [noReturn, noLine, carriage_newline]
    · rw [carriage_cons newline]
      cases part : p c with
      | true => simp [part, ih]
      | false => simp [part, carriage_cons newline]

/-- What a scanner took, in front of the rest under the other line ends. -/
def before (s : Scanned) : Scanned :=
  ⟨s.text, s.flag, carriage s.rest⟩

theorem scanNumber_carriage (hex float : Bool) (cs : List Char) :
    scanNumber hex float (carriage cs) = before (scanNumber hex float cs) := by
  have marked {c : Char} (mark : isExponentMark hex c = true) : c ≠ '\n' := by
    rintro rfl
    cases hex <;> cases mark
  have dots (rest : List Char) :
      decide ((carriage rest).head? ≠ some '.') = decide (rest.head? ≠ some '.') :=
    decide_eq_decide.mpr (not_congr (head_carriage (by decide) (by decide) rest))
  fun_induction scanNumber hex float cs with
  | case1 float => rfl
  | case2 float c mark rest ih =>
    rw [carriage_cons (marked mark), carriage_cons (by decide), scanNumber_sign mark (.inl rfl), ih]
    rfl
  | case3 float c mark rest ih =>
    rw [carriage_cons (marked mark), carriage_cons (by decide), scanNumber_sign mark (.inr rfl), ih]
    rfl
  | case4 float c mark rest noPlus noMinus ih =>
    rw [carriage_cons (marked mark), scanNumber_mark mark, ih]
    · rfl
    · intro d first
      constructor <;> rintro rfl
      · exact head_carriage_ne (by decide) (by decide) noPlus first
      · exact head_carriage_ne (by decide) (by decide) noMinus first
  | case5 float c rest noMark part ih =>
    have sameLine : c ≠ '\n' := by
      rintro rfl
      exact absurd part (by decide)
    rw [carriage_cons sameLine, scanNumber_part noMark part, ih]
    rfl
  | case6 float c rest noMark noPart dot ih =>
    have sameLine : c ≠ '\n' := by
      rintro rfl
      cases dot
    rw [← dots] at dot
    rw [carriage_cons sameLine, scanNumber_dot noMark noPart dot, ih]
    rfl
  | case7 float c rest noMark noPart noDot =>
    by_cases newline : c = '\n'
    · rw [newline, carriage_newline]
      exact scanNumber_stop (by cases hex <;> decide) (by decide) (by simp)
    · rw [← dots] at noDot
      rw [carriage_cons newline, scanNumber_stop noMark noPart noDot]
      simp [before, carriage_cons newline]

/-- Scanned behind an opening quote, the literal is open or holds a character that no path does. -/
def Spoilt (s : Scanned) : Prop :=
  s.flag = true → ∃ c ∈ s.text.dropLast, isPathChar c = false

theorem spoilt_open {s : Scanned} (unclosed : s.flag = false) : Spoilt s :=
  fun closed => nomatch unclosed.symm.trans closed

theorem spoilt_push {s : Scanned} (spoilt : Spoilt s) (c : Char) : Spoilt (s.push c) := by
  intro closed
  obtain ⟨d, inside, illegal⟩ := spoilt closed
  have visible : s.text ≠ [] := by
    intro none
    rw [none] at inside
    cases inside
  refine ⟨d, ?_, illegal⟩
  rw [Scanned.text_push, List.dropLast_cons_of_ne_nil visible]
  exact List.mem_cons_of_mem c inside

/-- Behind its opening quote a literal is taken alike. Only a backslash in front of a line end makes a
difference, and it spoils the literal both ways. -/
theorem scanQuoted_carriage {quote : Char} (quotes : quote ∈ ['"', '\'']) (cs : List Char) :
    scanQuoted quote (carriage cs) = before (scanQuoted quote cs) ∨
      Spoilt (scanQuoted quote cs) ∧ Spoilt (scanQuoted quote (carriage cs)) := by
  have plain : ∀ q ∈ ['"', '\''], q ≠ '\\' ∧ q ≠ '\n' ∧ '\r' ≠ q :=
    List.all_iff_forall_prop.mp (by decide)
  obtain ⟨noEscape, noLine, noReturn⟩ := plain quote quotes
  have ended (rest : List Char) : scanQuoted quote ('\r' :: '\n' :: rest) =
      Scanned.push '\r' ⟨[], false, '\n' :: rest⟩ := by
    rw [scanQuoted_plain (by decide) (by decide) noReturn]
    rfl
  fun_induction scanQuoted quote cs with
  | case1 | case2 => exact .inl rfl
  | case3 c rest ih =>
    by_cases newline : c = '\n'
    · -- The newline is escaped in one text. In the other the carriage return is, and the newline ends it.
      subst newline
      refine .inr ⟨fun _ => ⟨'\\', List.mem_cons_self .., rfl⟩, ?_⟩
      exact spoilt_push (spoilt_push (spoilt_open rfl) _) _
    · rw [carriage_cons (by decide), carriage_cons newline]
      rcases ih with same | ⟨first, second⟩
      · exact .inl (congrArg (fun s => (s.push c).push '\\') same)
      · exact .inr ⟨spoilt_push (spoilt_push first _) _, spoilt_push (spoilt_push second _) _⟩
  | case4 rest =>
    rw [carriage_newline, ended]
    exact .inr ⟨spoilt_open rfl, spoilt_push (spoilt_open rfl) _⟩
  | case5 rest last inner visible =>
    rw [carriage_cons visible, scanQuoted_closing noEscape visible]
    exact .inl rfl
  | case6 c rest last inner visible inside ih =>
    rw [carriage_cons visible, scanQuoted_plain (ne_backslash last inner) visible inside]
    rcases ih with same | ⟨first, second⟩
    · exact .inl (congrArg (Scanned.push c) same)
    · exact .inr ⟨spoilt_push first _, spoilt_push second _⟩

theorem scanRaw_carriage (cs : List Char) : scanRaw (carriage cs) =
    ⟨carriage (scanRaw cs).text, (scanRaw cs).flag, carriage (scanRaw cs).rest⟩ := by
  fun_induction scanRaw cs with
  | case1 => rfl
  | case2 rest => exact if_pos rfl
  | case3 c rest inside ih =>
    by_cases newline : c = '\n'
    · subst newline
      rw [carriage_newline, scanRaw, if_neg (by decide), scanRaw, if_neg inside, ih]
      rfl
    · rw [carriage_cons newline, scanRaw, if_neg inside, ih]
      simp [carriage_cons newline, Scanned.push]

theorem scanRaw_closed {cs : List Char} (closed : (scanRaw cs).flag = true) :
    ∃ inner, (scanRaw cs).text = inner ++ ['\x60'] := by
  fun_induction scanRaw cs with
  | case1 => cases closed
  | case2 => exact ⟨[], rfl⟩
  | case3 c rest inside ih =>
    obtain ⟨inner, text⟩ := ih closed
    exact ⟨c :: inner, congrArg (c :: ·) text⟩

theorem isPrefixOf_carriage {spelling : List Char} (joins : spelling.any divides = false)
    (cs : List Char) : spelling.isPrefixOf (carriage cs) = spelling.isPrefixOf cs := by
  induction cs generalizing spelling with
  | nil => rfl
  | cons c cs ih =>
    cases spelling with
    | nil => simp
    | cons d spelling =>
      obtain ⟨own, others⟩ := Bool.or_eq_false_iff.mp joins
      by_cases newline : c = '\n'
      · have apart {e : Char} (division : divides e = true) : (d == e) = false :=
          beq_false_of_ne (ne_of_divides division own).symm
        rw [newline, carriage_newline, List.isPrefixOf, List.isPrefixOf, apart (by decide),
          apart (by decide), Bool.false_and, Bool.false_and]
      · rw [carriage_cons newline]
        exact congrArg (d == c && ·) (ih others)

theorem longest?_carriage (cs : List Char) : Symbol.longest? (carriage cs) = Symbol.longest? cs := by
  apply List.find?_congr
  intro entry member
  exact isPrefixOf_carriage (spellings_join entry member) cs

/-! ## Tokens -/

/-- A literal that is no import path. Where one stands, no header goes on. -/
def Unfit : TokenKind → Prop
  | .literal .string text => isImportPath (unquote text) = false
  | .literal _ _ | .unterminatedString => True
  | _ => False

/-- Two texts start with the same token, or with literals that are no import paths. -/
inductive Paired (a b : Lexeme) : Prop where
  | same (kind : b.kind = a.kind) (rest : b.rest = carriage a.rest) : Paired a b
  | unfit (first : Unfit a.kind) (second : Unfit b.kind) : Paired a b

theorem unfit_spoilt (kind : LiteralKind) (quote : Char) {s : Scanned} (spoilt : Spoilt s) :
    Unfit (literalLexeme kind quote s).kind := by
  obtain ⟨text, flag, rest⟩ := s
  cases flag with
  | false => trivial
  | true =>
    cases kind with
    | string =>
      obtain ⟨c, inside, illegal⟩ := spoilt rfl
      have filled : text ≠ [] := List.ne_nil_of_mem (List.dropLast_subset _ inside)
      have path := unquote_quoted (List.ne_nil_of_mem inside) quote (text.getLast filled)
      rw [List.dropLast_concat_getLast filled] at path
      show isImportPath (unquote (String.ofList (quote :: text))) = false
      rw [path, isImportPath, String.toList_ofList, Bool.and_eq_false_iff]
      exact .inr (List.all_eq_false.mpr ⟨c, inside, Bool.eq_false_iff.mp illegal⟩)
    | _ => trivial

theorem paired_quoted (kind : LiteralKind) {quote : Char} (quotes : quote ∈ ['"', '\'']) (cs : List Char) :
    Paired (literalLexeme kind quote (scanQuoted quote cs))
      (literalLexeme kind quote (scanQuoted quote (carriage cs))) := by
  rcases scanQuoted_carriage quotes cs with same | ⟨first, second⟩
  · rw [same]
    exact .same rfl rfl
  · exact .unfit (unfit_spoilt kind quote first) (unfit_spoilt kind quote second)

/-- A raw string that holds a line end is no path, and any other is taken alike. -/
theorem paired_raw (cs : List Char) : Paired (literalLexeme .string '\x60' (scanRaw cs))
    (literalLexeme .string '\x60' (scanRaw (carriage cs))) := by
  rw [scanRaw_carriage]
  have closed := @scanRaw_closed cs
  generalize scanRaw cs = s at *
  by_cases newline : '\n' ∈ s.text
  · have inside {inner : List Char} (text : s.text = inner ++ ['\x60']) : '\n' ∈ inner := by
      simpa [text] using newline
    refine .unfit (unfit_spoilt _ _ fun flag => ?_) (unfit_spoilt _ _ fun flag => ?_)
    · obtain ⟨inner, text⟩ := closed flag
      rw [text, List.dropLast_concat]
      exact ⟨_, inside text, rfl⟩
    · obtain ⟨inner, text⟩ := closed flag
      have other : carriage s.text = carriage inner ++ ['\x60'] := by
        rw [text, carriage_append]
        rfl
      rw [other, List.dropLast_concat]
      exact ⟨_, mem_carriage (inside text), rfl⟩
  · rw [carriage_line newline]
    exact .same rfl rfl

theorem isHex_carriage (cs : List Char) : isHex (carriage cs) = isHex cs := by
  cases cs with
  | nil => rfl
  | cons c cs =>
    by_cases first : c = '\n'
    · rw [first, carriage_newline]
      simp [isHex]
    rw [carriage_cons first]
    cases cs with
    | nil => rfl
    | cons d cs =>
      by_cases second : d = '\n'
      · rw [second, carriage_newline]
        simp [isHex]
      · rw [carriage_cons second]
        rfl

theorem startsNumber_carriage (c : Char) (rest : List Char) :
    startsNumber c (carriage rest) = startsNumber c rest := by
  cases rest with
  | nil => rfl
  | cons d rest =>
    by_cases newline : d = '\n'
    · rw [newline]
      rfl
    · rw [carriage_cons newline]
      rfl

/-- The same token starts both texts, or both start with a literal that is no path. -/
theorem lexeme_carriage {c : Char} (sameLine : c ≠ '\n') (rest : List Char) :
    Paired (lexeme c rest) (lexeme c (carriage rest)) := by
  cases word : isIdentStart c with
  | true =>
    obtain ⟨taken, dropped⟩ := @takeWhile_carriage isIdentPart (by decide) (by decide) rest
    rw [lexeme, if_pos word, lexeme, if_pos word, taken, dropped]
    exact .same rfl rfl
  | false =>
    cases number : startsNumber c rest with
    | true =>
      have other : startsNumber c (carriage rest) = true := by rw [startsNumber_carriage, number]
      rw [lexeme_number word number, lexeme_number word other, ← carriage_cons sameLine, isHex_carriage,
        scanNumber_carriage]
      exact .same rfl rfl
    | false =>
      have other : startsNumber c (carriage rest) = false := by rw [startsNumber_carriage, number]
      by_cases string : c = '"'
      · subst string
        rw [lexeme_string, lexeme_string]
        exact paired_quoted .string (by simp) rest
      by_cases rune : c = '\''
      · subst rune
        rw [lexeme_rune, lexeme_rune]
        exact paired_quoted .rune (by simp) rest
      by_cases raw : c = '\x60'
      · subst raw
        rw [lexeme_raw, lexeme_raw]
        exact paired_raw rest
      rw [lexeme_other word number, lexeme_other word other, if_neg string, if_neg string, if_neg rune,
        if_neg rune, if_neg raw, if_neg raw, ← carriage_cons sameLine, longest?_carriage]
      split
      · rename_i text s found
        have joins := spellings_join _ (List.mem_of_find?_eq_some found)
        have noLine : '\n' ∉ text := by
          intro member
          exact List.any_eq_false.mp joins '\n' member (by decide)
        obtain ⟨-, ⟨behind, whole⟩, -⟩ := Symbol.longest?_eq_some found
        refine .same rfl ?_
        rw [← whole, carriage_append, carriage_line noLine, List.drop_left, List.drop_left]
      · exact .same rfl rfl

/-! ## Token sequences -/

/-- Two states in front of the same text but for its line ends. -/
structure Beside (s s' : LexState) : Prop where
  rest : s'.rest = carriage s.rest
  flag : s'.afterStatement = s.afterStatement

theorem unfit_ne {kind other : TokenKind} (unfit : Unfit kind) (fit : ¬ Unfit other) : kind ≠ other := by
  rintro rfl
  exact fit unfit

theorem unfit_running {kind : TokenKind} (unfit : Unfit kind) :
    kind.isFinal = false := by
  cases kind <;> first | rfl | cases unfit

/-- What is left by skipping starts with no line end. -/
theorem rest_sameLine {cs rest : List Char} {c : Char} (behind : (Trivia.skip .between cs).rest = c :: rest) :
    c ≠ '\n' := by
  rintro rfl
  have skipped : Skipped _ _ _ := skip_found .between cs
  have nothing := skip_rest (skipped.closed_of_rest (by simp [behind]))
  rw [behind, skip_blank (by decide)] at nothing
  cases congrArg Trivia.text nothing

theorem next_beside {s s' : LexState} (beside : Beside s s') :
    s'.next.1.kind = s.next.1.kind ∧ Beside s.next.2 s'.next.2 ∨
      Unfit s.next.1.kind ∧ Unfit s'.next.1.kind := by
  have skipped : Trivia.skip .between s'.rest = carried (Trivia.skip .between s.rest) := by
    rw [beside.rest, skip_carriage]
  have sameLine := @rest_sameLine s.rest
  unfold LexState.next
  rw [skipped, beside.flag]
  generalize Trivia.skip .between s.rest = t at *
  have empty : (carriage t.rest).isEmpty = t.rest.isEmpty := by
    rw [Bool.eq_iff_iff, List.isEmpty_iff, List.isEmpty_iff, carriage_eq_nil]
  simp only [carried, empty]
  by_cases due : (t.closed && (t.newline || t.rest.isEmpty) && s.afterStatement) = true
  · simp only [if_pos due]
    exact .inl ⟨trivial, rfl, rfl⟩
  · simp only [if_neg due]
    cases behind : t.rest with
    | nil => exact .inl ⟨rfl, rfl, rfl⟩
    | cons c rest =>
      rw [carriage_cons (sameLine behind)]
      rcases lexeme_carriage (sameLine behind) rest with ⟨kind, rest⟩ | ⟨first, second⟩
      · exact .inl ⟨kind, rest, congrArg TokenKind.endsStatement kind⟩
      · exact .inr ⟨first, second⟩

/-- Two token sequences with the same kinds, up to the first literal that is no path if there is one. -/
inductive Alike : List Token → List Token → Prop where
  | ended : Alike [] []
  | same {t u : Token} {ts us : List Token} (kind : u.kind = t.kind) (rest : Alike ts us) :
      Alike (t :: ts) (u :: us)
  | unfit {t u : Token} {ts us : List Token} (first : Unfit t.kind) (second : Unfit u.kind) :
      Alike (t :: ts) (u :: us)

theorem run_alike {s s' : LexState} (beside : Beside s s') : Alike s.run.tokens s'.run.tokens := by
  fun_induction LexState.run s generalizing s' with
  | case1 s final =>
    rcases next_beside beside with ⟨kind, -⟩ | ⟨unfit, -⟩
    · rw [run_final (by rw [kind, final])]
      exact .ended
    · cases final.symm.trans (unfit_running unfit)
  | case2 s running =>
    rename_i ih
    rcases next_beside beside with ⟨kind, rest⟩ | ⟨unfit, other⟩
    · rw [run_running (by rw [kind]; exact running)]
      exact .same kind (ih rest)
    · rw [run_running (unfit_running other)]
      exact .unfit unfit other

/-! ## Readers -/

/-- Two readers both fail, or both go on with results that are related. -/
inductive Outcomes {α : Type} (related : α → α → Prop) :
    Except HeaderError α → Except HeaderError α → Prop where
  | passed {a b : α} (results : related a b) : Outcomes related (.ok a) (.ok b)
  | failed {e e' : HeaderError} : Outcomes related (.error e) (.error e')

section Readers

variable {last last' : Token} {ts us : List Token}

theorem readKind_alike {kind : TokenKind} (fit : ¬ Unfit kind) (wanted : Wanted) (alike : Alike ts us) :
    Outcomes (fun a b => Alike a.2 b.2) (readKind last kind wanted ts) (readKind last' kind wanted us) := by
  cases alike with
  | ended => exact .failed
  | @same t u ts us same rest =>
    by_cases found : t.kind = kind
    · rw [readKind, if_pos found, readKind, if_pos (same.trans found)]
      exact .passed rest
    · rw [readKind, if_neg found, readKind, if_neg (by rwa [same])]
      exact .failed
  | unfit first second =>
    rw [readKind, if_neg (unfit_ne first fit), readKind,
      if_neg (unfit_ne second fit)]
    exact .failed

theorem takeAlias_unfit {t : Token} (unfit : Unfit t.kind) (ts : List Token) :
    takeAlias (t :: ts) = (none, t :: ts) := by
  unfold takeAlias
  split
  · rename_i same
    cases same
    cases unfit
  · rename_i same
    cases same
    cases unfit
  · rfl

theorem takeAlias_alike (alike : Alike ts us) :
    (takeAlias us).1.map (·.1) = (takeAlias ts).1.map (·.1) ∧ Alike (takeAlias ts).2 (takeAlias us).2 := by
  cases alike with
  | ended => exact ⟨rfl, .ended⟩
  | @same t u ts us kind rest =>
    obtain ⟨own, place⟩ := t
    obtain ⟨other, place'⟩ := u
    obtain rfl : other = own := kind
    cases other with
    | ident name => exact ⟨rfl, rest⟩
    | symbol s =>
      cases s with
      | dot => exact ⟨rfl, rest⟩
      | _ => exact ⟨rfl, .same rfl rest⟩
    | _ => exact ⟨rfl, .same rfl rest⟩
  | unfit first second =>
    rw [takeAlias_unfit first, takeAlias_unfit second]
    exact ⟨rfl, .unfit first second⟩

/-- The import path that a kind of token stands for. -/
def pathOf? : TokenKind → Option String
  | .literal .string text => if isImportPath (unquote text) then some (unquote text) else none
  | _ => none

theorem pathOf?_unfit {kind : TokenKind} (unfit : Unfit kind) : pathOf? kind = none := by
  cases kind with
  | literal kind text =>
    cases kind with
    | string => exact if_neg (Bool.eq_false_iff.mp unfit)
    | _ => rfl
  | _ => rfl

/-- A spec is read if its path stands behind its name. -/
inductive SpecRead (ts : List Token) : Except HeaderError (ImportSpec × List Token) → Prop where
  | read {t : Token} {rest : List Token} {path : String} {place : Span}
      (behind : (takeAlias ts).2 = t :: rest) (found : pathOf? t.kind = some path) :
      SpecRead ts (.ok (⟨(takeAlias ts).1.map (·.1), path, place⟩, rest))
  | refused {e : HeaderError} (none : ∀ t ∈ (takeAlias ts).2.head?, pathOf? t.kind = none) :
      SpecRead ts (.error e)

theorem readImportSpec_read (last : Token) (ts : List Token) :
    SpecRead ts (readImportSpec last ts) := by
  unfold readImportSpec
  split
  rename_i named after taken
  split
  · rename_i literal place rest
    by_cases valid : isImportPath (unquote literal) = true
    · simp only [if_pos valid]
      have spec := @SpecRead.read ts ⟨.literal .string literal, place⟩ rest (unquote literal)
      rw [taken] at spec
      exact spec rfl (if_pos valid)
    · simp only [if_neg valid]
      refine .refused ?_
      rw [taken]
      rintro _ ⟨⟩
      exact if_neg valid
  · rename_i noLiteral
    refine .refused ?_
    rw [taken]
    intro t first
    obtain ⟨tail, rfl⟩ := List.head?_eq_some_iff.mp first
    obtain ⟨kind, place⟩ := t
    cases kind with
    | literal kind text =>
      cases kind with
      | string => exact absurd rfl (noLiteral text place tail)
      | _ => rfl
    | _ => rfl

theorem readImportSpec_alike (alike : Alike ts us) :
    Outcomes (fun a b => imported b.1 = imported a.1 ∧ Alike a.2 b.2) (readImportSpec last ts)
      (readImportSpec last' us) := by
  obtain ⟨sameName, behind⟩ := takeAlias_alike alike
  have first := readImportSpec_read last ts
  have second := readImportSpec_read last' us
  generalize readImportSpec last ts = a at *
  generalize readImportSpec last' us = b at *
  cases first with
  | read here path =>
    rw [here] at behind
    cases second with
    | read there other =>
      rw [there] at behind
      cases behind with
      | same kind rest =>
        rw [kind, path] at other
        cases other
        exact .passed ⟨Prod.ext sameName rfl, rest⟩
      | unfit unfit => cases (pathOf?_unfit unfit).symm.trans path
    | refused none =>
      generalize (takeAlias us).2 = after at behind none
      cases behind with
      | same kind => cases (none _ rfl).symm.trans ((congrArg pathOf? kind).trans path)
      | unfit unfit => cases (pathOf?_unfit unfit).symm.trans path
  | refused none =>
    cases second with
    | read there path =>
      rw [there] at behind
      generalize (takeAlias ts).2 = after at behind none
      cases behind with
      | same kind => cases (none _ rfl).symm.trans ((congrArg pathOf? kind).symm.trans path)
      | unfit _ unfit => cases (pathOf?_unfit unfit).symm.trans path
    | refused => exact .failed

/-- What follows a spec in a group. -/
def groupBehind (last : Token) (spec : ImportSpec) :
    List Token → List ImportSpec × Except HeaderError (List Token)
  | [] => ([spec], .error (.unexpected .separator last))
  | separator :: more =>
    if separator.kind = .semi then
      (spec :: (readImportGroup last more).1, (readImportGroup last more).2)
    else if separator.kind = .symbol .rparen then ([spec], .ok more)
    else ([spec], .error (.unexpected .separator separator))

def specBehind (last : Token) : Except HeaderError (ImportSpec × List Token) →
    List ImportSpec × Except HeaderError (List Token)
  | .error e => ([], .error e)
  | .ok (spec, after) => groupBehind last spec after

theorem readImportGroup_cons (last t : Token) (rest : List Token) : readImportGroup last (t :: rest) =
    if t.kind = .symbol .rparen then ([], .ok rest)
    else specBehind last (readImportSpec last (t :: rest)) := by
  rw [readImportGroup.eq_def]
  simp only
  split
  · rfl
  · split
    · rename_i ran
      rw [ran]
      rfl
    · rename_i ran
      refine Eq.trans ?_ (congrArg (specBehind last) ran).symm
      split <;> rfl

/-- Two readers of several specs have read the same ones, and both fail or both go on. -/
def GroupsAlike (a b : List ImportSpec × Except HeaderError (List Token)) : Prop :=
  b.1.map imported = a.1.map imported ∧ Outcomes Alike a.2 b.2

theorem groupBehind_alike {spec other : ImportSpec} (same : imported other = imported spec)
    (alike : Alike ts us) (inner : ∀ {more more' : List Token}, Alike more more' →
      more.length < ts.length → GroupsAlike (readImportGroup last more) (readImportGroup last' more')) :
    GroupsAlike (groupBehind last spec ts) (groupBehind last' other us) := by
  have single : [other].map imported = [spec].map imported := congrArg (· :: []) same
  cases alike with
  | ended => exact ⟨single, .failed⟩
  | @same t u ts us kind rest =>
    obtain ⟨specs, ended⟩ := inner rest (Nat.lt_succ_self _)
    simp only [groupBehind, kind]
    split
    · exact ⟨by rw [List.map_cons, List.map_cons, same, specs], ended⟩
    · split
      · exact ⟨single, .passed rest⟩
      · exact ⟨single, .failed⟩
  | unfit first second =>
    rw [groupBehind, if_neg (unfit_ne first id), if_neg (unfit_ne first id), groupBehind,
      if_neg (unfit_ne second id), if_neg (unfit_ne second id)]
    exact ⟨single, .failed⟩

theorem readImportGroup_alike (alike : Alike ts us) :
    GroupsAlike (readImportGroup last ts) (readImportGroup last' us) := by
  -- On the length, since a spec and what separates it from the next are several tokens.
  induction length : ts.length using Nat.strong_induction_on generalizing ts us with
  | h n ih =>
    have behind : GroupsAlike (specBehind last (readImportSpec last ts))
        (specBehind last' (readImportSpec last' us)) := by
      have shorter (spec : ImportSpec) (after : List Token) :=
        @length_lt_of_readImportSpec last ts after spec
      have spec := @readImportSpec_alike last last' _ _ alike
      generalize readImportSpec last ts = a at *
      generalize readImportSpec last' us = b at *
      cases spec with
      | failed => exact ⟨rfl, .failed⟩
      | passed results =>
        refine groupBehind_alike results.1 results.2 fun more less => ih _ ?_ more rfl
        rw [← length]
        exact Nat.lt_trans less (shorter _ _ rfl)
    cases alike with
    | ended =>
      rw [readImportGroup, readImportGroup]
      exact ⟨rfl, .failed⟩
    | @same t u ts us kind rest =>
      rw [readImportGroup_cons, readImportGroup_cons, kind]
      split
      · exact ⟨rfl, .passed rest⟩
      · exact behind
    | unfit first second =>
      rw [readImportGroup_cons, if_neg (unfit_ne first id), readImportGroup_cons,
        if_neg (unfit_ne second id)]
      exact behind

/-- A declaration without a group. -/
def singleDecl : Except HeaderError (ImportSpec × List Token) →
    List ImportSpec × Except HeaderError (List Token)
  | .error e => ([], .error e)
  | .ok (spec, rest) => ([spec], .ok rest)

theorem readImportDecl_cons (last t : Token) (rest : List Token) : readImportDecl last (t :: rest) =
    if t.kind = .symbol .lparen then readImportGroup last rest
    else singleDecl (readImportSpec last (t :: rest)) := by
  unfold readImportDecl
  split
  · rename_i same
    cases same
    rfl
  · rename_i noParen
    obtain ⟨kind, place⟩ := t
    rw [if_neg (by rintro rfl; exact noParen place rest rfl)]
    cases readImportSpec last (⟨kind, place⟩ :: rest) <;> rfl

theorem singleDecl_alike (alike : Alike ts us) :
    GroupsAlike (singleDecl (readImportSpec last ts)) (singleDecl (readImportSpec last' us)) := by
  have spec := @readImportSpec_alike last last' _ _ alike
  generalize readImportSpec last ts = a at *
  generalize readImportSpec last' us = b at *
  cases spec with
  | failed => exact ⟨rfl, .failed⟩
  | passed results => exact ⟨congrArg (· :: []) results.1, .passed results.2⟩

theorem readImportDecl_alike (alike : Alike ts us) :
    GroupsAlike (readImportDecl last ts) (readImportDecl last' us) := by
  have single := @singleDecl_alike last last' _ _ alike
  cases alike with
  | ended => exact ⟨rfl, .failed⟩
  | same kind rest =>
    rw [readImportDecl_cons, readImportDecl_cons, kind]
    split
    · exact readImportGroup_alike rest
    · exact single
  | unfit first second =>
    rw [readImportDecl_cons, if_neg (unfit_ne first id), readImportDecl_cons,
      if_neg (unfit_ne second id)]
    exact single

/-- What follows the word that starts an import declaration. -/
def importsBehind (last : Token) : List ImportSpec × Except HeaderError (List Token) →
    List ImportSpec × Option HeaderError
  | (specs, .error e) => (specs, some e)
  | (specs, .ok after) =>
    match readKind last .semi .separator after with
    | .error e => (specs, some e)
    | .ok (_, more) => (specs ++ (readImports last more).1, (readImports last more).2)

theorem readImports_cons (last t : Token) (rest : List Token) : readImports last (t :: rest) =
    if t.kind = .keyword .import_ then importsBehind last (readImportDecl last rest)
    else ([], none) := by
  rw [readImports.eq_def]
  simp only
  split
  · split
    · rename_i ran
      rw [ran]
      rfl
    · rename_i specs after ran
      refine Eq.trans ?_ (congrArg (importsBehind last) ran).symm
      rw [importsBehind]
      split
      · rename_i done
        rw [done]
      · rename_i done
        rw [done]
  · rfl

/-- Two readers of all imports have read the same ones, and both fail or neither does. -/
def ImportsAlike (a b : List ImportSpec × Option HeaderError) : Prop :=
  b.1.map imported = a.1.map imported ∧ (b.2 = none ↔ a.2 = none)

theorem importsBehind_alike {a b : List ImportSpec × Except HeaderError (List Token)}
    (groups : GroupsAlike a b) (inner : ∀ {after more more' : List Token} {place : Span},
      a.2 = .ok after → readKind last .semi .separator after = .ok (place, more) → Alike more more' →
      ImportsAlike (readImports last more) (readImports last' more')) :
    ImportsAlike (importsBehind last a) (importsBehind last' b) := by
  obtain ⟨specs, ended⟩ := a
  obtain ⟨others, ended'⟩ := b
  obtain ⟨same, ends⟩ := groups
  cases ends with
  | failed => exact ⟨same, iff_of_false nofun nofun⟩
  | @passed after after' rest =>
    have semi := @readKind_alike last last' _ _ .semi id .separator rest
    have more (place : Span) (more more' : List Token) := @inner after more more' place rfl
    rw [importsBehind, importsBehind]
    generalize readKind last .semi .separator after = read at *
    generalize readKind last' .semi .separator after' = read' at *
    cases semi with
    | failed => exact ⟨same, iff_of_false nofun nofun⟩
    | passed behind =>
      obtain ⟨imports, failed⟩ := more _ _ _ rfl behind
      exact ⟨by rw [List.map_append, List.map_append, same, imports], failed⟩

theorem readImports_alike (alike : Alike ts us) :
    ImportsAlike (readImports last ts) (readImports last' us) := by
  induction length : ts.length using Nat.strong_induction_on generalizing ts us with
  | h n ih =>
    cases alike with
    | ended =>
      rw [readImports, readImports]
      exact ⟨rfl, Iff.rfl⟩
    | unfit first second =>
      rw [readImports_cons, if_neg (unfit_ne first id), readImports_cons,
        if_neg (unfit_ne second id)]
      exact ⟨rfl, Iff.rfl⟩
    | @same t u ts us kind rest =>
      rw [readImports_cons, readImports_cons, kind]
      split
      · refine importsBehind_alike (readImportDecl_alike rest) fun decl semi more => ih _ ?_ more rfl
        have declared := length_lt_of_readImportDecl last (Prod.ext rfl decl)
        have separated := length_lt_of_readKind last semi
        rw [List.length_cons] at length
        omega
      · exact ⟨rfl, Iff.rfl⟩

theorem readPackageClause_alike (alike : Alike ts us) :
    Outcomes (fun a b => b.1.name = a.1.name ∧ Alike a.2 b.2) (readPackageClause last ts)
      (readPackageClause last' us) := by
  have package := @readKind_alike last last' _ _ (.keyword .package) id .packageWord alike
  unfold readPackageClause
  generalize readKind last (.keyword .package) .packageWord ts = read at *
  generalize readKind last' (.keyword .package) .packageWord us = read' at *
  cases package with
  | failed => exact .failed
  | @passed a b behind =>
    obtain ⟨start, ts⟩ := a
    obtain ⟨start', us⟩ := b
    simp only [bind, Except.bind] at behind ⊢
    cases behind with
    | ended => exact .failed
    | @same t u ts us kind rest =>
      obtain ⟨own, place⟩ := t
      obtain ⟨other, place'⟩ := u
      obtain rfl : other = own := kind
      cases other with
      | ident name =>
        have semi := @readKind_alike last last' _ _ .semi id .separator rest
        simp only
        generalize readKind last .semi .separator ts = read at *
        generalize readKind last' .semi .separator us = read' at *
        cases semi with
        | failed => exact .failed
        | passed rest => exact .passed ⟨rfl, rest⟩
      | _ => exact .failed
    | unfit first second =>
      split
      · rename_i same
        cases same
        cases first
      · split
        · rename_i same
          cases same
          cases second
        · exact .failed

end Readers

/-! ## Headers -/

/-- The imports of a header that is read. -/
def importsOf? (reading : HeaderReading) : Option (List Import) :=
  reading.header?.map fun header => header.imports.map imported

/-- Two readings have the same names and paths, and both have an error or neither has. -/
def ReadAlike (a b : HeaderReading) : Prop :=
  b.packageName? = a.packageName? ∧ importsOf? b = importsOf? a ∧ (b.error? = none ↔ a.error? = none)

theorem readHeader_alike (mode : HeaderMode) {stream other : TokenStream}
    (alike : Alike stream.tokens other.tokens) :
    ReadAlike (readHeader mode stream) (readHeader mode other) := by
  have clause := @readPackageClause_alike stream.last other.last _ _ alike
  unfold readHeader
  generalize readPackageClause stream.last stream.tokens = read at *
  generalize readPackageClause other.last other.tokens = read' at *
  cases clause with
  | failed => exact ⟨rfl, rfl, iff_of_false nofun nofun⟩
  | passed results =>
    obtain ⟨name, rest⟩ := results
    cases mode with
    | clauseOnly => exact ⟨congrArg some name, rfl, Iff.rfl⟩
    | withImports =>
      obtain ⟨imports, failed⟩ := @readImports_alike stream.last other.last _ _ rest
      exact ⟨congrArg some name, congrArg some imports, failed⟩

/-- The text with a carriage return in front of every newline and a mark in front of all. -/
def rewritten (mark : List Char) (text : String) : String :=
  String.ofList (mark ++ carriage text.toList)

theorem start_beside {mark : List Char} (isMark : Mark mark) {text : String}
    (unmarked : text.toList.head? ≠ some '\uFEFF') :
    Beside (.start text) (.start (rewritten mark text)) := by
  rw [start_unmarked unmarked]
  cases isMark with
  | absent =>
    rw [start_unmarked]
    · exact ⟨String.toList_ofList, rfl⟩
    · rw [rewritten, String.toList_ofList, List.nil_append, ne_eq, head_carriage (by decide) (by decide)]
      exact unmarked
  | present =>
    rw [LexState.start, rewritten, String.toList_ofList]
    exact ⟨rfl, rfl⟩

/-- Neither line ends with carriage returns nor a byte order mark change the package name and the imports
that are read from a text, or whether there is an error. -/
theorem headers_ignore_line_ends (mode : HeaderMode) {mark : List Char} (isMark : Mark mark)
    {text : String} (unmarked : text.toList.head? ≠ some '\uFEFF') :
    ReadAlike (parseHeader mode text) (parseHeader mode (rewritten mark text)) := by
  have tokens := run_alike (start_beside isMark unmarked)
  exact readHeader_alike mode tokens

/-- A path with a backslash at the end of its first line. -/
def brokenPath : String :=
  "package p\nimport (\n\t\"a\"\n\t\"b\\\n\"\n)"

/-- The path is closed on its second line, and under the other line ends it is open on the first. -/
theorem brokenPath_alike : Mark ['\uFEFF'] ∧ brokenPath.toList.head? ≠ some '\uFEFF' ∧
    (tokenize brokenPath).tokens.map (·.kind) ≠
      (tokenize (rewritten ['\uFEFF'] brokenPath)).tokens.map (·.kind) ∧
    ReadAlike (parseHeader .withImports brokenPath)
      (parseHeader .withImports (rewritten ['\uFEFF'] brokenPath)) := by
  have unmarked : brokenPath.toList.head? ≠ some '\uFEFF' := by decide
  exact ⟨.present, unmarked, by decide +kernel, headers_ignore_line_ends .withImports .present unmarked⟩

end PackageLoader.LineEndings
