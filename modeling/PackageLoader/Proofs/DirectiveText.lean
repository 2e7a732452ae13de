import PackageLoader.Descriptor.Directives
import PackageLoader.Proofs.TextCutting

/-! Directives as they are spelled. A line says what stands on it between blanks and in front of a
comment, and a directive that is spelled in words of its own is read back from them. -/
namespace PackageLoader.DirectiveText
open Text TextCutting

/-! ## Spellings -/

/-- At least one blank. -/
def Gap (cs : List Char) : Prop :=
  cs ≠ [] ∧ Blanks cs

/-- The kind of an entry. -/
def kindOf : DescriptorEntry → EntryKind
  | .require _ => .require
  | .replace _ => .replace

/-- The word in front of an entry or a block. -/
def keyword : EntryKind → String
  | .require => "require"
  | .replace => "replace"

/-- A line that says nothing: blanks, or a comment that does not mark a draft. -/
inductive Idle : List Char → Prop where
  | blank {line : List Char} (blanks : Blanks line) : Idle line
  | comment {indent : List Char} (comment : List Char) (blanks : Blanks indent)
      (unmarked : trimBlanks comment ≠ "Draft".toList) : Idle (indent ++ '/' :: '/' :: comment)

/-- A line that marks a draft. -/
inductive Mark : List Char → Prop where
  | mark {indent : List Char} (comment : List Char) (blanks : Blanks indent)
      (marked : trimBlanks comment = "Draft".toList) : Mark (indent ++ '/' :: '/' :: comment)

/-- A line that says something, between blanks and perhaps in front of a comment. A comment stands
apart from a slash, which would be taken for its first one. -/
inductive Line (text : List Char) : List Char → Prop where
  | plain {indent trail : List Char} (before : Blanks indent) (behind : Blanks trail) :
      Line text (indent ++ text ++ trail)
  | commented {indent trail : List Char} (comment : List Char) (before : Blanks indent)
      (behind : Blanks trail) (apart : trail = [] → text.getLast? ≠ some '/') :
      Line text (indent ++ text ++ trail ++ '/' :: '/' :: comment)

/-- An entry as it stands in a block. -/
inductive EntryText : DescriptorEntry → List Char → Prop where
  | require (r : Requirement) {gap : List Char} (blanks : Gap gap) :
      EntryText (.require r) (r.module.toList ++ gap ++ r.version.toList)
  | replace (r : Replacement) {left right : List Char} (before : Blanks left) (behind : Blanks right) :
      EntryText (.replace r) (r.old.toList ++ left ++ '=' :: '>' :: (right ++ r.new.toList))

/-- A directive as it stands on a line of its own. An empty version need not be set apart. -/
inductive SingleText : Directive → List Char → Prop where
  | module (path : String) {gap : List Char} (blanks : Gap gap) :
      SingleText (.module path) ("module".toList ++ gap ++ path.toList)
  | version (text : String) {gap : List Char} (blanks : Gap gap) (filled : text ≠ "") :
      SingleText (.version text) ("gno".toList ++ gap ++ text.toList)
  | noVersion : SingleText (.version "") "gno".toList
  | entry {e : DescriptorEntry} {text gap : List Char} (blanks : Gap gap) (spelled : EntryText e text) :
      SingleText (.entry e) ((keyword (kindOf e)).toList ++ gap ++ text)

/-- The path that a directive declares. -/
def declared? : Directive → Option String
  | .module path => some path
  | _ => none

/-- The version that a directive gives. -/
def version? : Directive → Option String
  | .version text => some text
  | _ => none

/-- The requirement that a directive adds. -/
def required? : Directive → Option Requirement
  | .entry (.require r) => some r
  | _ => none

/-- The replacement that a directive adds. -/
def replaced? : Directive → Option Replacement
  | .entry (.replace r) => some r
  | _ => none

/-- A word without a comment in it. -/
def Term (cs : List Char) : Prop :=
  IsWord cs ∧ ¬ ['/', '/'] <:+: cs

/-- What can be written so that it is read as it is: paths are valid and have no quotes at their ends,
versions of the module stay on their line, everything else is a word, and the arrow of a replacement
is the first one. -/
def Writable : Directive → Prop
  | .module path => isModulePath path.toList = true ∧ path.toList.head? ≠ some '"' ∧
      path.toList.getLast? ≠ some '"'
  | .version text => Trimmed text.toList ∧ '\n' ∉ text.toList ∧ ¬ ['/', '/'] <:+: text.toList
  | .entry (.require r) => isModulePath r.module.toList = true ∧ Term r.version.toList
  | .entry (.replace r) => Term r.old.toList ∧ ¬ ['=', '>'] <:+: r.old.toList ∧ Term r.new.toList
  | .block _ => True

/-! ## Words and lines -/

/-- A slash, an arrow and a parenthesis are no blanks. -/
theorem signs_plain : ∀ c ∈ ['/', '=', '>', '(', ')'], isBlank c = false :=
  List.all_iff_forall_prop.mp (by decide)

theorem notMem_blanks {blanks : List Char} (all : Blanks blanks) {c : Char}
    (plain : isBlank c = false) : c ∉ blanks := by
  intro member
  rw [all c member] at plain
  cases plain

theorem term_of_isModulePath {path : List Char} (valid : isModulePath path = true) : Term path := by
  simp only [isModulePath, Bool.and_eq_true, Bool.not_eq_true', List.isEmpty_eq_false_iff,
    Option.isNone_iff_eq_none, List.any_eq_false] at valid
  obtain ⟨⟨⟨⟨filled, -⟩, -⟩, single⟩, plain⟩ := valid
  refine ⟨⟨filled, fun c member => by simpa using plain c member⟩, ?_⟩
  exact (cut?_eq_none_iff (by simp)).mp single

/-- Texts that do not meet at a blank and are without a pair are without it together. -/
theorem without_append {x y : Char} {front behind : List Char} (first : Without x y front)
    (second : Without x y behind)
    (meet : (∀ c, front.getLast? = some c → c ≠ x) ∨ ∀ c, behind.head? = some c → c ≠ y) :
    Without x y (front ++ behind) := by
  refine first.append second ?_
  rintro c last d head ⟨same, other⟩
  rcases meet with apart | apart
  · exact apart c last same
  · exact apart d head other

section Signs

variable {x y : Char} (plain : isBlank x = false) (other : isBlank y = false)
include plain

/-- Blanks in front of a text do not bring two signs together. -/
theorem without_front {front cs : List Char} (blanks : Blanks front) (apart : Without x y cs) :
    Without x y (front ++ cs) := by
  have absent := notMem_blanks blanks plain
  refine without_append (without_of_notMem absent) apart (Or.inl ?_)
  rintro c last rfl
  exact absent (List.mem_of_getLast? last)

include other

/-- Nor do blanks behind it. -/
theorem without_behind {behind cs : List Char} (blanks : Blanks behind) (apart : Without x y cs) :
    Without x y (cs ++ behind) := by
  refine without_append apart (without_of_notMem (notMem_blanks blanks plain)) (Or.inr ?_)
  rintro c first rfl
  exact notMem_blanks blanks other (List.mem_of_head? first)

/-- Nor do blanks that set two texts apart. -/
theorem without_spaced {front gap behind : List Char} (first : Without x y front) (blanks : Gap gap)
    (second : Without x y behind) : Without x y (front ++ gap ++ behind) := by
  refine without_append (without_behind plain other blanks.2 first) second (Or.inl ?_)
  rintro c last rfl
  obtain ⟨d, end?⟩ := Option.isSome_iff_exists.mp (List.getLast?_isSome.mpr blanks.1)
  rw [List.getLast?_append, end?, Option.some_or, Option.some.injEq] at last
  exact notMem_blanks blanks.2 plain (last ▸ List.mem_of_getLast? end?)

end Signs

theorem trimmed_append {a b c : List Char} (first : IsWord a) (last : Trimmed c) (filled : c ≠ []) :
    Trimmed (a ++ b ++ c) := by
  constructor
  · intro d head
    obtain ⟨e, rest, rfl⟩ := List.exists_cons_of_ne_nil first.1
    rw [List.append_assoc, List.cons_append, List.head?_cons, Option.some.injEq] at head
    exact head ▸ first.2 e (List.mem_cons_self ..)
  · intro d behind
    obtain ⟨e, end?⟩ := Option.isSome_iff_exists.mp (List.getLast?_isSome.mpr filled)
    rw [List.getLast?_append, end?, Option.some_or, Option.some.injEq] at behind
    exact behind ▸ last.2 e end?

/-! ## What a line says -/

/-- A comment starts at the first two slashes. -/
theorem cut?_comment {before : List Char} (comment : List Char) (clear : Without '/' '/' before)
    (apart : before.getLast? ≠ some '/') :
    cut? ['/', '/'] (before ++ '/' :: '/' :: comment) = some (before, comment) := by
  refine cut?_pair_eq_some_iff.mpr ⟨rfl, without_append clear (List.isChain_singleton _) (Or.inl ?_)⟩
  rintro c last rfl
  exact apart last

theorem cut?_comment_blanks {indent : List Char} (comment : List Char) (blanks : Blanks indent) :
    cut? ['/', '/'] (indent ++ '/' :: '/' :: comment) = some (indent, comment) := by
  have absent := notMem_blanks blanks (signs_plain '/' (by simp))
  exact cut?_comment comment (without_of_notMem absent) fun last =>
    absent (List.mem_of_getLast? last)

/-- A mark says nothing but that it marks. -/
theorem statement_mark {line : List Char} (mark : Mark line) :
    statement line = [] ∧ isDraftMark line = true := by
  obtain ⟨comment, blanks, marked⟩ := mark
  rw [statement, isDraftMark, cut?_comment_blanks comment blanks]
  exact ⟨trimBlanks_blanks blanks, by simpa [marked] using blanks⟩

/-- An idle line says nothing at all. -/
theorem statement_idle {line : List Char} (idle : Idle line) :
    statement line = [] ∧ isDraftMark line = false := by
  cases idle with
  | blank blanks =>
    have clear : cut? ['/', '/'] line = none := by
      rw [cut?_eq_none_iff (by simp), ← without_iff]
      exact without_of_notMem (notMem_blanks blanks (signs_plain '/' (by simp)))
    rw [statement, isDraftMark, clear]
    exact ⟨trimBlanks_blanks blanks, rfl⟩
  | comment comment blanks unmarked =>
    rw [statement, isDraftMark, cut?_comment_blanks comment blanks]
    exact ⟨trimBlanks_blanks blanks, by simpa using fun _ => unmarked⟩

/-- What stands on a line is what it says. -/
theorem statement_line {text line : List Char} (stands : Line text line) (filled : text ≠ [])
    (trimmed : Trimmed text) (clear : Without '/' '/' text) :
    statement line = text ∧ isDraftMark line = false := by
  have plain := signs_plain '/' (by simp)
  cases stands with
  | @plain indent trail before behind =>
    have none : cut? ['/', '/'] (indent ++ text ++ trail) = none := by
      rw [cut?_eq_none_iff (by simp), ← without_iff]
      exact without_behind plain plain behind (without_front plain before clear)
    rw [statement, isDraftMark, none]
    exact ⟨(trimBlanks_padded before behind text).trans (trimBlanks_trimmed trimmed), rfl⟩
  | @commented indent trail comment before behind apart =>
    have found : cut? ['/', '/'] (indent ++ text ++ trail ++ '/' :: '/' :: comment) =
        some (indent ++ text ++ trail, comment) := by
      refine cut?_comment comment
        (without_behind plain plain behind (without_front plain before clear)) ?_
      intro last
      rw [List.getLast?_append, List.getLast?_append] at last
      by_cases close : trail = []
      · obtain ⟨c, end?⟩ := Option.isSome_iff_exists.mp (List.getLast?_isSome.mpr filled)
        rw [close, List.getLast?_nil, Option.none_or, end?, Option.some_or] at last
        exact apart close (end?.trans last)
      · obtain ⟨c, end?⟩ := Option.isSome_iff_exists.mp (List.getLast?_isSome.mpr close)
        rw [end?, Option.some_or, Option.some.injEq] at last
        exact notMem_blanks behind plain (last ▸ List.mem_of_getLast? end?)
    rw [statement, isDraftMark, found]
    refine ⟨(trimBlanks_padded before behind text).trans (trimBlanks_trimmed trimmed), ?_⟩
    obtain ⟨c, rest, rfl⟩ := List.exists_cons_of_ne_nil filled
    have visible := trimmed.1 c rfl
    simp [visible]

/-! ## Reading what is spelled -/

/-- A gap in front of a text starts with a blank. -/
theorem gap_head {gap : List Char} (blanks : Gap gap) (behind : List Char) :
    ∀ c, (gap ++ behind).head? = some c → isBlank c = true := by
  intro c first
  obtain ⟨d, rest, rfl⟩ := List.exists_cons_of_ne_nil blanks.1
  rw [List.cons_append, List.head?_cons, Option.some.injEq] at first
  exact first ▸ blanks.2 d (List.mem_cons_self ..)

/-- A requirement is its two words. -/
theorem words_spaced {a gap b : List Char} (first : IsWord a) (blanks : Gap gap) (second : IsWord b) :
    words (a ++ gap ++ b) = [a, b] := by
  rw [List.append_assoc, words_cons first (gap_head blanks b),
    words_skip blanks.2 (trimmed_of_isWord second).1, words_word second]

/-- An entry is read back from its text, which has no blanks at its ends, no comment in it and is not
a parenthesis. -/
theorem entryText_read {e : DescriptorEntry} {text : List Char} (writable : Writable (.entry e))
    (spelled : EntryText e text) :
    readEntry (kindOf e) text = .ok e ∧ Trimmed text ∧ Without '/' '/' text ∧ 2 ≤ text.length := by
  have plain := signs_plain '/' (by simp)
  cases spelled with
  | @require r gap blanks =>
    obtain ⟨valid, word, clear⟩ := writable
    obtain ⟨path, pathClear⟩ := term_of_isModulePath valid
    refine ⟨?_, trimmed_append path (trimmed_of_isWord word) word.1,
      without_spaced plain plain (without_iff.mpr pathClear) blanks (without_iff.mpr clear), ?_⟩
    · simp only [kindOf, readEntry, readRequirement, words_spaced path blanks word, valid, ↓reduceIte,
        String.ofList_toList]
      rfl
    · have first := List.length_pos_iff.mpr path.1
      have second := List.length_pos_iff.mpr word.1
      simp only [List.length_append]
      omega
  | @replace r left right before behind =>
    obtain ⟨⟨old, oldClear⟩, arrowless, new, newClear⟩ := writable
    have found : cut? ['=', '>'] (r.old.toList ++ left ++ '=' :: '>' :: (right ++ r.new.toList)) =
        some (r.old.toList ++ left, right ++ r.new.toList) := by
      have clear := without_behind (signs_plain '=' (by simp)) (signs_plain '>' (by simp)) before
        (without_iff.mpr arrowless)
      refine cut?_pair_eq_some_iff.mpr ⟨rfl, without_append clear (List.isChain_singleton _)
        (Or.inr ?_)⟩
      rintro c first rfl
      cases first
    have oldWords : words (r.old.toList ++ left) = [r.old.toList] := by
      rw [words_cons old fun c first => before c (List.mem_of_head? first), words_blanks before]
    have newWords : words (right ++ r.new.toList) = [r.new.toList] := by
      rw [words_skip behind (trimmed_of_isWord new).1, words_word new]
    refine ⟨?_, ?_, ?_, ?_⟩
    · simp only [kindOf, readEntry, readReplacement, found, oldWords, newWords, String.ofList_toList]
      rfl
    · have whole : r.old.toList ++ left ++ '=' :: '>' :: (right ++ r.new.toList) =
          r.old.toList ++ (left ++ '=' :: '>' :: right) ++ r.new.toList := by simp
      rw [whole]
      exact trimmed_append old (trimmed_of_isWord new) new.1
    · have front := without_behind plain plain before (without_iff.mpr oldClear)
      have back := without_front plain behind (without_iff.mpr newClear)
      have arrow : Without '/' '/' ['=', '>'] := without_of_notMem (by decide)
      show Without '/' '/' (r.old.toList ++ left ++ (['=', '>'] ++ (right ++ r.new.toList)))
      refine without_append front (without_append arrow back (Or.inl ?_)) (Or.inr ?_)
      · rintro c last rfl
        cases last
      · rintro c first rfl
        cases first
    · have first := List.length_pos_iff.mpr old.1
      simp only [List.length_append, List.length_cons]
      omega

/-- The word in front of a gap is told apart from what stands behind it. -/
theorem cutAtBlank_spaced {word gap spec : List Char} (isWord : IsWord word) (blanks : Gap gap)
    (trimmed : Trimmed spec) : ∃ rest, cutAtBlank (word ++ gap ++ spec) = (word, rest) ∧
      trimBlanks rest = spec := by
  obtain ⟨c, more, rfl⟩ := List.exists_cons_of_ne_nil blanks.1
  refine ⟨more ++ spec, ?_, ?_⟩
  · rw [List.append_assoc, cutAtBlank_word isWord (gap_head blanks spec)]
    rfl
  · have left : Blanks more := fun d member => blanks.2 d (List.mem_cons_of_mem _ member)
    have padded := trimBlanks_padded left (List.forall_mem_nil _) spec
    rw [List.append_nil] at padded
    exact padded.trans (trimBlanks_trimmed trimmed)

/-- Quotes are dropped at the ends only. -/
theorem unquoted_plain {path : List Char} (first : path.head? ≠ some '"')
    (last : path.getLast? ≠ some '"') : unquoted path = path := by
  have other {c : Char} (differs : c ≠ '"') : decide (c = '"') = false := decide_eq_false differs
  exact dropEnds_eq_self (fun c head => other fun same => first (same ▸ head))
    fun c end? => other fun same => last (same ▸ end?)

/-! ### Directives by their first word -/

section FirstWord

variable {line word rest spec : List Char} (cut : cutAtBlank line = (word, rest))
  (behind : trimBlanks rest = spec)
include cut behind

theorem readDirective_module (first : word = "module".toList) : readDirective line =
    if isModulePath (unquoted spec) then .ok (.module (String.ofList (unquoted spec)))
    else .error (.invalidPath (String.ofList (unquoted spec))) := by
  subst behind first
  rw [readDirective, cut]
  rfl

theorem readDirective_version (first : word = "gno".toList ∨ word = "go".toList) :
    readDirective line = .ok (.version (String.ofList spec)) := by
  subst behind
  rw [readDirective, cut]
  rcases first with rfl | rfl <;> rfl

theorem readDirective_entry {kind : EntryKind} (first : word = (keyword kind).toList) :
    readDirective line =
      if spec = ['('] then .ok (.block kind) else (readEntry kind spec).map .entry := by
  subst behind first
  rw [readDirective, cut]
  cases kind <;> rfl

omit behind in
theorem readDirective_unknown (noModule : word ≠ "module".toList)
    (noVersion : ¬ (word = "gno".toList ∨ word = "go".toList))
    (noEntry : ∀ kind, word ≠ (keyword kind).toList) :
    readDirective line = .error (.unknownDirective (String.ofList line)) := by
  have noRequire : word ≠ "require".toList := noEntry .require
  have noReplace : word ≠ "replace".toList := noEntry .replace
  rw [not_or] at noVersion
  rw [readDirective, cut]
  simp only [noModule, noVersion, noRequire, noReplace, decide_false, Bool.or_self,
    Bool.false_eq_true, ↓reduceIte]

end FirstWord

/-- The words in front of directives are told apart from the one that declares a module, and no word
has a comment in it. -/
theorem keywords_clear : ∀ word ∈ ["module", "gno", "require", "replace"],
    IsWord word.toList ∧ Without '/' '/' word.toList := by
  have each : ∀ word ∈ ["module", "gno", "require", "replace"], word.toList ≠ [] ∧
      (word.toList.all fun c => isBlank c = false) ∧ '/' ∉ word.toList := by decide
  intro word member
  obtain ⟨filled, plain, absent⟩ := each word member
  exact ⟨⟨filled, List.all_iff_forall_prop.mp plain⟩, without_of_notMem absent⟩

theorem keyword_clear (kind : EntryKind) :
    IsWord (keyword kind).toList ∧ Without '/' '/' (keyword kind).toList ∧
      (keyword kind).toList ≠ "module".toList := by
  cases kind
  · exact ⟨(keywords_clear "require" (by simp)).1, (keywords_clear "require" (by simp)).2, by decide⟩
  · exact ⟨(keywords_clear "replace" (by simp)).1, (keywords_clear "replace" (by simp)).2, by decide⟩

/-- A directive on a line of its own is read back from its text. -/
theorem singleText_read {directive : Directive} {text : List Char} (writable : Writable directive)
    (spelled : SingleText directive text) :
    readDirective text = .ok directive ∧ Trimmed text ∧ Without '/' '/' text ∧ text ≠ [] ∧
      ((cutAtBlank text).1 = "module".toList → (declared? directive).isSome) := by
  have plain := signs_plain '/' (by simp)
  cases spelled with
  | @module path gap blanks =>
    obtain ⟨valid, first, last⟩ := writable
    obtain ⟨word, clear⟩ := term_of_isModulePath valid
    obtain ⟨front, frontClear⟩ := keywords_clear "module" (by simp)
    obtain ⟨rest, cut, spec⟩ := cutAtBlank_spaced front blanks (trimmed_of_isWord word)
    refine ⟨?_, trimmed_append front (trimmed_of_isWord word) word.1,
      without_spaced plain plain frontClear blanks (without_iff.mpr clear), by simp, fun _ => rfl⟩
    rw [readDirective_module cut spec rfl, unquoted_plain first last, if_pos valid,
      String.ofList_toList]
  | @version text gap blanks filled =>
    obtain ⟨trimmed, -, clear⟩ := writable
    obtain ⟨front, frontClear⟩ := keywords_clear "gno" (by simp)
    obtain ⟨rest, cut, spec⟩ := cutAtBlank_spaced front blanks trimmed
    refine ⟨?_, trimmed_append front trimmed (by simpa using filled),
      without_spaced plain plain frontClear blanks (without_iff.mpr clear), by simp, ?_⟩
    · rw [readDirective_version cut spec (Or.inl rfl), String.ofList_toList]
    · rw [cut]
      exact fun same => absurd same (by decide : "gno".toList ≠ "module".toList)
  | noVersion =>
    obtain ⟨front, frontClear⟩ := keywords_clear "gno" (by simp)
    have cut : cutAtBlank "gno".toList = ("gno".toList, []) := by decide
    refine ⟨?_, trimmed_of_isWord front, frontClear, front.1, ?_⟩
    · rw [readDirective_version cut rfl (Or.inl rfl)]
      rfl
    · rw [cut]
      exact fun same => absurd same (by decide : "gno".toList ≠ "module".toList)
  | @entry e text gap blanks spelled =>
    obtain ⟨read, trimmed, clear, long⟩ := entryText_read writable spelled
    obtain ⟨front, frontClear, other⟩ := keyword_clear (kindOf e)
    obtain ⟨rest, cut, spec⟩ := cutAtBlank_spaced front blanks trimmed
    have filled : text ≠ [] := by
      rintro rfl
      cases long
    have parenless : text ≠ ['('] := by
      rintro rfl
      exact absurd long (by decide)
    refine ⟨?_, trimmed_append front trimmed filled,
      without_spaced plain plain frontClear blanks clear, by simp [filled], ?_⟩
    · rw [readDirective_entry cut spec rfl, if_neg parenless, read]
      rfl
    · rw [cut]
      exact fun same => absurd same other

/-- A block is opened by its word and a parenthesis. -/
theorem opening_read (kind : EntryKind) {gap : List Char} (blanks : Gap gap) :
    readDirective ((keyword kind).toList ++ gap ++ ['(']) = .ok (.block kind) ∧
      Trimmed ((keyword kind).toList ++ gap ++ ['(']) ∧
      Without '/' '/' ((keyword kind).toList ++ gap ++ ['(']) ∧
      (cutAtBlank ((keyword kind).toList ++ gap ++ ['('])).1 ≠ "module".toList := by
  have plain := signs_plain '/' (by simp)
  obtain ⟨front, frontClear, other⟩ := keyword_clear kind
  have paren : IsWord ['('] := ⟨by simp, by simpa using signs_plain '(' (by simp)⟩
  obtain ⟨rest, cut, spec⟩ := cutAtBlank_spaced front blanks (trimmed_of_isWord paren)
  refine ⟨?_, trimmed_append front (trimmed_of_isWord paren) paren.1,
    without_spaced plain plain frontClear blanks (List.isChain_singleton _), ?_⟩
  · rw [readDirective_entry cut spec rfl, if_pos rfl]
  · rw [cut]
    exact other

end PackageLoader.DirectiveText
