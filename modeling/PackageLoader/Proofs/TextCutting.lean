import Mathlib.Data.Bool.AllAny
import Mathlib.Data.List.Chain
import Mathlib.Data.List.DropRight
import Mathlib.Data.List.SplitBy
import PackageLoader.Text.Cut

/-! Where texts are cut. A pattern is found at the first place where it stands, so what is in front
of that place is known not to have it; blanks at the ends and between words are the only thing that
trimming and splitting lose; and lines have no line ends in them. -/
namespace PackageLoader.TextCutting
open Text

/-! ## The first place of a pattern -/

/-- A text is cut at the first place of a pattern: the pattern does not start earlier, not even so
that it reaches into that place. -/
theorem cut?_eq_some_iff {pattern cs before behind : List Char} (filled : pattern ≠ []) :
    cut? pattern cs = some (before, behind) ↔ cs = before ++ (pattern ++ behind) ∧
      ∀ front tail, before = front ++ tail → tail ≠ [] → ¬ pattern <+: tail ++ (pattern ++ behind) := by
  induction cs generalizing before with
  | nil => simp [cut?, filled]
  | cons c cs ih =>
    rw [cut?]
    by_cases stands : pattern <+: c :: cs
    · obtain ⟨rest, whole⟩ := stands
      rw [if_pos (List.isPrefixOf_iff_prefix.mpr ⟨rest, whole⟩), ← whole, List.drop_left,
        Option.some.injEq, Prod.mk.injEq]
      constructor
      · rintro ⟨rfl, rfl⟩
        refine ⟨rfl, fun front tail split nonempty => absurd ?_ nonempty⟩
        exact (List.append_eq_nil_iff.mp split.symm).2
      · rintro ⟨same, apart⟩
        cases before with
        | nil => exact ⟨rfl, List.append_cancel_left same⟩
        | cons d before => exact absurd ⟨rest, same⟩ (apart [] (d :: before) rfl (by simp))
    · rw [if_neg (mt List.isPrefixOf_iff_prefix.mp stands)]
      constructor
      · intro found
        obtain ⟨⟨inner, rest⟩, later, same⟩ := Option.map_eq_some_iff.mp found
        obtain ⟨rfl, rfl⟩ := Prod.mk.inj same
        obtain ⟨rfl, apart⟩ := ih.mp later
        refine ⟨rfl, fun front tail split nonempty => ?_⟩
        cases front with
        | nil => exact (List.nil_append tail ▸ split) ▸ stands
        | cons d front => exact apart front tail (List.cons.inj split).2 nonempty
      · rintro ⟨same, apart⟩
        cases before with
        | nil => exact absurd ⟨behind, same.symm⟩ stands
        | cons d before =>
          obtain ⟨rfl, rfl⟩ := List.cons.inj same
          rw [ih.mpr ⟨rfl, fun front tail split => apart (c :: front) tail (split ▸ rfl)⟩]
          rfl

/-- A text is cut at the first place of a character. -/
theorem cut?_char_eq_some_iff {x : Char} {cs before behind : List Char} :
    cut? [x] cs = some (before, behind) ↔ cs = before ++ x :: behind ∧ x ∉ before := by
  rw [cut?_eq_some_iff (by simp)]
  refine and_congr_right fun _ => ⟨fun apart member => ?_, fun absent front tail split nonempty => ?_⟩
  · obtain ⟨front, tail, split⟩ := List.append_of_mem member
    exact apart front (x :: tail) split (by simp) (by simp)
  · obtain ⟨c, rest, rfl⟩ := List.exists_cons_of_ne_nil nonempty
    rw [List.cons_append, List.cons_prefix_cons]
    rintro ⟨rfl, -⟩
    exact absent (by simp [split])

/-- Nowhere in a text does the second character follow the first one. -/
abbrev Without (x y : Char) (cs : List Char) : Prop :=
  cs.IsChain fun a b => ¬ (a = x ∧ b = y)

theorem without_iff {x y : Char} {cs : List Char} : Without x y cs ↔ ¬ [x, y] <:+: cs := by
  rw [Without, List.isChain_iff_forall_rel_of_append_cons_cons]
  constructor
  · rintro apart ⟨before, behind, rfl⟩
    exact @apart x y before behind (by simp) ⟨rfl, rfl⟩
  · rintro absent a b before behind rfl ⟨rfl, rfl⟩
    exact absent ⟨before, behind, by simp⟩

/-- A text without the first character is without the pair. -/
theorem without_of_notMem {x y : Char} {cs : List Char} (absent : x ∉ cs) : Without x y cs := by
  rw [without_iff]
  intro inside
  exact absent (inside.subset (List.mem_cons_self ..))

/-- A text is cut at the first place of a pair. -/
theorem cut?_pair_eq_some_iff {x y : Char} {cs before behind : List Char} :
    cut? [x, y] cs = some (before, behind) ↔
      cs = before ++ x :: y :: behind ∧ Without x y (before ++ [x]) := by
  rw [cut?_eq_some_iff (by simp), Without, List.isChain_iff_forall_rel_of_append_cons_cons]
  refine and_congr_right fun _ => ⟨fun apart a b front tail split same => ?_,
    fun apart front tail split nonempty stands => ?_⟩
  · obtain ⟨rfl, rfl⟩ := same
    obtain ⟨inner, last, concat⟩ : ∃ inner last, b :: tail = inner ++ [last] :=
      ⟨_, _, (List.dropLast_concat_getLast (List.cons_ne_nil b tail)).symm⟩
    have whole : before ++ [a] = (front ++ a :: inner) ++ [last] := by
      rw [split, concat, List.append_assoc, List.cons_append]
    obtain ⟨rfl, same⟩ := List.append_inj' whole rfl
    obtain rfl := List.singleton_inj.mp same
    refine apart front (a :: inner) rfl (by simp) ⟨tail ++ b :: behind, ?_⟩
    calc a :: (b :: tail ++ b :: behind) = a :: (inner ++ [a] ++ b :: behind) := by rw [concat]
      _ = a :: inner ++ ([a, b] ++ behind) := by simp
  · obtain ⟨c, rest, rfl⟩ := List.exists_cons_of_ne_nil nonempty
    rw [List.cons_append, List.cons_prefix_cons] at stands
    obtain ⟨rfl, next⟩ := stands
    obtain ⟨more, follows⟩ : ∃ more, rest ++ [x] = y :: more := by
      cases rest with
      | nil => exact ⟨[], by simpa [eq_comm] using next⟩
      | cons d rest => exact ⟨rest ++ [x], by simpa [eq_comm] using next⟩
    exact apart (by rw [split, List.append_assoc, List.cons_append, follows]) ⟨rfl, rfl⟩

/-- Nothing is cut where a pattern does not stand. -/
theorem cut?_eq_none_iff {pattern cs : List Char} (filled : pattern ≠ []) :
    cut? pattern cs = none ↔ ¬ pattern <:+: cs := by
  induction cs with
  | nil => simp [cut?, filled]
  | cons c cs ih =>
    rw [cut?, List.infix_cons_iff, not_or, ← ih, ← List.isPrefixOf_iff_prefix]
    split
    · rename_i stands
      simp [stands]
    · rename_i absent
      simp [absent]

/-! ## Both ends -/

section Ends

variable (drops : Char → Bool) (cs : List Char)

/-- What is dropped at both ends of a text leaves a part of it. -/
theorem dropEnds_inside : (cs.dropWhile drops).rdropWhile drops <:+: cs := by
  have front := List.dropWhile_suffix drops (l := cs)
  have behind := List.rdropWhile_prefix drops (cs.dropWhile drops)
  exact behind.isInfix.trans front.isInfix

/-- Neither end of what is left would be dropped as well. -/
theorem dropEnds_ends :
    (∀ c, ((cs.dropWhile drops).rdropWhile drops).head? = some c → drops c = false) ∧
      ∀ c, ((cs.dropWhile drops).rdropWhile drops).getLast? = some c → drops c = false := by
  constructor
  · intro c first
    obtain ⟨more, whole⟩ := List.rdropWhile_prefix drops (cs.dropWhile drops)
    have stops := List.head?_dropWhile_not drops cs
    rw [← whole, List.head?_append, first] at stops
    simpa using stops
  · intro c last
    have filled : (cs.dropWhile drops).rdropWhile drops ≠ [] := by
      intro empty
      rw [empty] at last
      cases last
    have stops := List.rdropWhile_last_not drops _ filled
    rw [List.getLast?_eq_some_getLast filled, Option.some.injEq] at last
    rw [last] at stops
    simpa using stops

variable {drops cs}

/-- Where neither end would be dropped, nothing is. -/
theorem dropEnds_eq_self (first : ∀ c, cs.head? = some c → drops c = false)
    (last : ∀ c, cs.getLast? = some c → drops c = false) :
    (cs.dropWhile drops).rdropWhile drops = cs := by
  have front : cs.dropWhile drops = cs := by
    cases cs with
    | nil => rfl
    | cons c cs => rw [List.dropWhile_cons_of_neg (by simp [first c rfl])]
  rw [front, List.rdropWhile_eq_self_iff]
  intro filled dropped
  rw [last _ (List.getLast?_eq_some_getLast filled)] at dropped
  cases dropped

/-- More of what is dropped, in front of a text and behind it, is dropped as well. -/
theorem dropEnds_padded {front behind : List Char} (before : ∀ c ∈ front, drops c = true)
    (after : ∀ c ∈ behind, drops c = true) (cs : List Char) :
    ((front ++ cs ++ behind).dropWhile drops).rdropWhile drops =
      (cs.dropWhile drops).rdropWhile drops := by
  have last (ds : List Char) : (ds ++ behind).rdropWhile drops = ds.rdropWhile drops := by
    rw [List.rdropWhile, List.reverse_append, List.dropWhile_append_of_pos (by simpa using after)]
    rfl
  rw [List.append_assoc, List.dropWhile_append_of_pos before, List.dropWhile_append]
  split
  · rename_i empty
    rw [List.isEmpty_iff.mp empty, List.dropWhile_eq_nil_iff.mpr after]
  · exact last _

end Ends

/-! ## Blanks at the ends -/

/-- Nothing but blanks. -/
abbrev Blanks (cs : List Char) : Prop :=
  ∀ c ∈ cs, isBlank c = true

/-- No blank stands at either end. -/
def Trimmed (cs : List Char) : Prop :=
  (∀ c, cs.head? = some c → isBlank c = false) ∧ ∀ c, cs.getLast? = some c → isBlank c = false

theorem trimBlanks_eq (cs : List Char) :
    trimBlanks cs = (cs.dropWhile isBlank).rdropWhile isBlank := rfl

/-- Blanks in front of a text and behind it are dropped. -/
theorem trimBlanks_padded {front behind : List Char} (before : Blanks front) (after : Blanks behind)
    (cs : List Char) : trimBlanks (front ++ cs ++ behind) = trimBlanks cs :=
  dropEnds_padded before after cs

theorem trimBlanks_blanks {cs : List Char} (blanks : Blanks cs) : trimBlanks cs = [] := by
  rw [trimBlanks_eq, List.dropWhile_eq_nil_iff.mpr blanks, List.rdropWhile_nil]

/-- Trimming leaves a text without blanks at its ends as it is. -/
theorem trimBlanks_trimmed {cs : List Char} (trimmed : Trimmed cs) : trimBlanks cs = cs :=
  dropEnds_eq_self trimmed.1 trimmed.2

theorem trimmed_trimBlanks (cs : List Char) : Trimmed (trimBlanks cs) :=
  dropEnds_ends isBlank cs

theorem trimBlanks_inside (cs : List Char) : trimBlanks cs <:+: cs :=
  dropEnds_inside isBlank cs

/-! ## Words -/

/-- At least one character, and no blank. -/
def IsWord (cs : List Char) : Prop :=
  cs ≠ [] ∧ ∀ c ∈ cs, isBlank c = false

/-- A word has no blanks at its ends. -/
theorem trimmed_of_isWord {cs : List Char} (word : IsWord cs) : Trimmed cs :=
  ⟨fun _ first => word.2 _ (List.mem_of_head? first), fun _ last => word.2 _ (List.mem_of_getLast? last)⟩

theorem words_nil : words [] = [] := rfl

/-- Characters of one kind are one run. -/
theorem splitBy_run {cs : List Char} (filled : cs ≠ []) {blank : Bool}
    (alike : ∀ c ∈ cs, isBlank c = blank) :
    cs.splitBy (fun a b => isBlank a == isBlank b) = [cs] := by
  apply List.splitBy_of_isChain filled
  rw [List.isChain_iff_forall_rel_of_append_cons_cons]
  rintro a b before behind rfl
  simp [alike a (by simp), alike b (by simp)]

/-- The words of two texts one behind the other, if a blank and no blank meet between them. -/
theorem words_append {front behind : List Char}
    (differ : ∀ a, front.getLast? = some a → ∀ b, behind.head? = some b → isBlank a ≠ isBlank b) :
    words (front ++ behind) = words front ++ words behind := by
  rw [words, List.splitBy_append, List.filter_append]
  · rfl
  · intro a last b first
    simpa using differ a last b first

theorem words_blanks {cs : List Char} (blanks : Blanks cs) : words cs = [] := by
  by_cases empty : cs = []
  · rw [empty, words_nil]
  · obtain ⟨c, rest, rfl⟩ := List.exists_cons_of_ne_nil empty
    rw [words, splitBy_run empty blanks]
    simp [blanks c (List.mem_cons_self ..)]

theorem words_word {cs : List Char} (word : IsWord cs) : words cs = [cs] := by
  rw [words, splitBy_run word.1 word.2]
  simpa using word.2

/-- A word in front of a blank or of the end is the first word. -/
theorem words_cons {word behind : List Char} (isWord : IsWord word)
    (ends : ∀ c, behind.head? = some c → isBlank c = true) :
    words (word ++ behind) = word :: words behind := by
  rw [words_append, words_word isWord, List.singleton_append]
  intro a last b first
  rw [isWord.2 a (List.mem_of_getLast? last), ends b first]
  simp

/-- Blanks in front of a word or of the end belong to no word. -/
theorem words_skip {blanks behind : List Char} (skipped : Blanks blanks)
    (starts : ∀ c, behind.head? = some c → isBlank c = false) :
    words (blanks ++ behind) = words behind := by
  rw [words_append, words_blanks skipped, List.nil_append]
  intro a last b first
  rw [skipped a (List.mem_of_getLast? last), starts b first]
  simp

/-- The words of a text are words and stand in it. -/
theorem isWord_of_mem {cs word : List Char} (member : word ∈ words cs) :
    IsWord word ∧ word <:+: cs := by
  obtain ⟨run, plain⟩ := List.mem_filter.mp member
  refine ⟨⟨List.ne_nil_of_mem_splitBy run, fun c inside => ?_⟩, ?_⟩
  · simp only [Bool.not_eq_true', List.any_eq_false] at plain
    simpa using plain c inside
  · rw [← List.flatten_splitBy (fun a b => isBlank a == isBlank b) cs]
    exact List.infix_of_mem_flatten run

/-- A text is cut behind a word in front of a blank. -/
theorem cutAtBlank_word {word behind : List Char} (isWord : IsWord word)
    (ends : ∀ c, behind.head? = some c → isBlank c = true) :
    cutAtBlank (word ++ behind) = (word, behind.drop 1) := by
  have plain : ∀ c ∈ word, (!isBlank c) = true := fun c member => by simp [isWord.2 c member]
  have stop : behind.takeWhile (!isBlank ·) = [] ∧ behind.dropWhile (!isBlank ·) = behind := by
    cases behind with
    | nil => exact ⟨rfl, rfl⟩
    | cons c behind => simp [ends c rfl]
  rw [cutAtBlank, List.takeWhile_append_of_pos plain, List.dropWhile_append_of_pos plain, stop.1,
    stop.2, List.append_nil]

/-! ## Lines -/

/-- A line ends at its first line end. -/
theorem lines_append {line : List Char} (whole : '\n' ∉ line) (rest : List Char) :
    lines (line ++ '\n' :: rest) = line :: lines rest := by
  induction line with
  | nil => simp [lines]
  | cons c line ih =>
    have plain : c ≠ '\n' := fun same => whole (same ▸ List.mem_cons_self ..)
    rw [List.cons_append, lines, if_neg plain, ih fun member => whole (List.mem_cons_of_mem _ member)]

/-- The last line need not have an end. -/
theorem lines_last {line : List Char} (filled : line ≠ []) (whole : '\n' ∉ line) :
    lines line = [line] := by
  induction line with
  | nil => exact absurd rfl filled
  | cons c line ih =>
    have plain : c ≠ '\n' := fun same => whole (same ▸ List.mem_cons_self ..)
    rw [lines, if_neg plain]
    by_cases last : line = []
    · rw [last]
      rfl
    · rw [ih last fun member => whole (List.mem_cons_of_mem _ member)]

/-- No line has a line end in it. -/
theorem notMem_of_mem_lines {cs line : List Char} (member : line ∈ lines cs) : '\n' ∉ line := by
  induction cs generalizing line with
  | nil => cases member
  | cons c cs ih =>
    rw [lines] at member
    split at member
    · rcases List.mem_cons.mp member with rfl | later
      · exact List.not_mem_nil
      · exact ih later
    · rename_i plain
      have apart {rest : List Char} (other : '\n' ∉ rest) : '\n' ∉ c :: rest := by
        rw [List.mem_cons, not_or]
        exact ⟨Ne.symm plain, other⟩
      cases split : lines cs with
      | nil =>
        rw [split] at member
        rw [List.mem_singleton.mp member]
        exact apart List.not_mem_nil
      | cons first more =>
        rw [split] at member ih
        rcases List.mem_cons.mp member with rfl | later
        · exact apart (ih (List.mem_cons_self ..))
        · exact ih (List.mem_cons_of_mem _ later)

end PackageLoader.TextCutting
