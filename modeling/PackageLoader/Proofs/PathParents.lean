import PackageLoader.Proofs.PathSpellings

/-! The directory that a path lies in. It is spelled as the path is up to where the last component but
one ends, and it has all components of the path but the last. So the directories of two spellings of one
path are two spellings of one directory. -/
namespace PackageLoader.PathParents
open PathNormalForm PathSpellings Subdirectories

/-! ## Beginnings -/

/-- The segment under way ends where it is read to, and it is the only one. -/
theorem underway_split {seen : List Char} {position finish : Nat} {segment : String}
    {front back : List (String × Nat)}
    (read : underway seen position = front ++ (segment, finish) :: back) :
    finish = position ∧ back = [] := by
  unfold underway at read
  split at read
  · exact absurd read (by simp)
  · cases front with
    | nil =>
      cases read
      exact ⟨rfl, rfl⟩
    | cons s front => exact absurd (List.cons.inj read).2 (by simp)

/-- No segment ends in front of the text that it is read from. -/
theorem segmentsFrom_end_ge {cs seen : List Char} {position : Nat} {s : String × Nat}
    (member : s ∈ Path.segmentsFrom cs seen position) : position ≤ s.2 := by
  have pending {seen : List Char} {position : Nat} (member : s ∈ underway seen position) :
      position ≤ s.2 := by
    obtain ⟨front, back, read⟩ := List.append_of_mem member
    exact Nat.le_of_eq (underway_split read).1.symm
  induction cs generalizing seen position with
  | nil => exact pending (segmentsFrom_nil seen position ▸ member)
  | cons c cs ih =>
    by_cases separator : c = '/'
    · subst separator
      rw [segmentsFrom_separator] at member
      rcases List.mem_append.mp member with here | later
      · exact pending here
      · exact Nat.le_of_succ_le (ih later)
    · rw [segmentsFrom_character separator] at member
      exact Nat.le_of_succ_le (ih member)

/-- A text that is cut off where a segment ends has the segments up to that one. -/
theorem segmentsFrom_take {cs seen : List Char} {position finish : Nat} {segment : String}
    {front back : List (String × Nat)}
    (read : Path.segmentsFrom cs seen position = front ++ (segment, finish) :: back) :
    Path.segmentsFrom (cs.take (finish - position)) seen position = front ++ [(segment, finish)] := by
  have pending {cs seen : List Char} {position : Nat} {front back : List (String × Nat)}
      (read : underway seen position = front ++ (segment, finish) :: back) :
      Path.segmentsFrom (cs.take (finish - position)) seen position =
        front ++ [(segment, finish)] := by
    obtain ⟨rfl, rfl⟩ := underway_split read
    rw [Nat.sub_self, List.take_zero, segmentsFrom_nil, read]
  induction cs generalizing seen position front with
  | nil => exact pending (segmentsFrom_nil seen position ▸ read)
  | cons c cs ih =>
    -- A segment that is still to come ends behind this character.
    have later {seen : List Char} {front : List (String × Nat)}
        (read : Path.segmentsFrom cs seen (position + 1) = front ++ (segment, finish) :: back) :
        (c :: cs).take (finish - position) = c :: cs.take (finish - (position + 1)) := by
      have beyond : position + 1 ≤ finish :=
        segmentsFrom_end_ge (read ▸ List.mem_append_right _ (List.mem_cons_self ..))
      have further : finish - position = finish - (position + 1) + 1 := by omega
      rw [further, List.take_succ_cons]
    by_cases separator : c = '/'
    · subst separator
      rw [segmentsFrom_separator] at read
      rcases List.append_eq_append_iff.mp read with ⟨as, rfl, rest⟩ | ⟨bs, here, rest⟩
      · rw [later rest, segmentsFrom_separator, ih rest, List.append_assoc]
      · cases bs with
        | nil =>
          have rest : Path.segmentsFrom cs [] (position + 1) = [] ++ (segment, finish) :: back :=
            rest.symm
          rw [later rest, segmentsFrom_separator, here, ih rest, List.append_nil, List.nil_append]
        | cons b bs =>
          cases rest
          exact pending here
    · rw [segmentsFrom_character separator] at read
      rw [later read, segmentsFrom_character separator, ih read]

/-! ## Steps -/

section Steps

variable {p : Path} {c : Component} {finish : Nat}

theorem upTo_isAbsolute (p : Path) (position : Nat) :
    (p.upTo position).isAbsolute = (p.isAbsolute && decide (0 < position)) := by
  unfold Path.isAbsolute Path.upTo
  cases position with
  | zero => simp
  | succ n => cases text : p.text.toList <;> simp

/-- No segment of an absolute path ends at its front. -/
theorem segment_end_pos (absolute : p.isAbsolute = true) {s : String × Nat} (member : s ∈ p.segments) :
    0 < s.2 := by
  obtain ⟨rest, text⟩ := exists_absolute_text absolute
  rw [Path.segments, text, segmentsFrom_separator] at member
  have beyond : 1 ≤ s.2 := segmentsFrom_end_ge member
  exact beyond

/-- What a segment means ends where the segment does. -/
theorem innerStep_end {s : String × Nat} (means : Path.innerStep s = some (c, finish)) :
    s.2 = finish := by
  unfold Path.innerStep at means
  split at means
  · cases means
  · split at means <;> cases means <;> rfl

/-- A path that is cut off where a meaning ends has the segments up to there. -/
theorem upTo_segments (front : List (String × Nat)) {segments : List (String × Nat)}
    {steps rest : List (Component × Nat)} (read : p.segments = front ++ segments)
    (means : segments.filterMap Path.innerStep = steps ++ (c, finish) :: rest) :
    ∃ kept, (p.upTo finish).segments = front ++ kept ∧ kept <+: segments ∧
      kept.filterMap Path.innerStep = steps ++ [(c, finish)] ∧ ∃ segment, (segment, finish) ∈ kept := by
  obtain ⟨before, after, rfl, first, second⟩ := List.filterMap_eq_append_iff.mp means
  obtain ⟨skipped, ⟨segment, position⟩, later, rfl, nothing, own, -⟩ :=
    List.filterMap_eq_cons_iff.mp second
  obtain rfl : position = finish := innerStep_end own
  have whole : Path.segmentsFrom p.text.toList [] 0 =
      (front ++ before ++ skipped) ++ (segment, position) :: later := by
    rw [← Path.segments, read]
    simp
  have cut := segmentsFrom_take whole
  refine ⟨before ++ skipped ++ [(segment, position)], ?_, ⟨later, by simp⟩, ?_, segment, by simp⟩
  · rw [Path.segments, Path.upTo, String.toList_ofList, ← Nat.sub_zero position, cut]
    simp
  · have none : skipped.filterMap Path.innerStep = [] := List.filterMap_eq_nil_iff.mpr nothing
    simp [first, none, own]

/-- A path that is cut off where one of its steps ends has the steps up to that one. -/
theorem upTo_steps {front back : List (Component × Nat)}
    (steps : p.steps = front ++ (c, finish) :: back) :
    (p.upTo finish).steps = front ++ [(c, finish)] := by
  unfold Path.steps at steps ⊢
  rw [upTo_isAbsolute]
  cases absolute : p.isAbsolute with
  | true =>
    rw [absolute, if_pos rfl] at steps
    cases front with
    | nil =>
      obtain ⟨⟨rfl, rfl⟩, -⟩ : (c = .root ∧ finish = 1) ∧ _ := by simpa [eq_comm] using steps
      have root : p.upTo 1 = ⟨"/"⟩ := by
        obtain ⟨rest, text⟩ := exists_absolute_text absolute
        rw [Path.upTo, text]
        rfl
      rw [root]
      rfl
    | cons step front =>
      obtain ⟨rfl, means⟩ := List.cons.inj steps
      obtain ⟨kept, cut, part, meant, segment, ends⟩ := upTo_segments [] rfl means
      have there := segment_end_pos absolute (part.subset ends)
      rw [if_pos (by simpa using there), cut, List.nil_append, meant, List.cons_append]
  | false =>
    rw [absolute, if_neg Bool.false_ne_true] at steps
    rw [Bool.false_and, if_neg Bool.false_ne_true]
    split at steps
    · rename_i dot rest segments
      cases front with
      | nil =>
        obtain ⟨⟨rfl, rfl⟩, -⟩ : (c = .current ∧ finish = dot) ∧ _ := by simpa [eq_comm] using steps
        have cut : (p.upTo finish).segments = [(".", finish)] := by
          have whole : Path.segmentsFrom p.text.toList [] 0 = [] ++ (".", finish) :: rest := segments
          rw [Path.segments, Path.upTo, String.toList_ofList, ← Nat.sub_zero finish,
            segmentsFrom_take whole, Nat.sub_zero, List.nil_append]
        rw [cut]
        rfl
      | cons step front =>
        obtain ⟨rfl, means⟩ := List.cons.inj steps
        obtain ⟨kept, cut, -, meant, -⟩ := upTo_segments [(".", dot)] segments means
        simp [cut, meant]
    · rename_i other
      obtain ⟨kept, cut, ⟨more, part⟩, meant, -⟩ := upTo_segments [] rfl steps
      rw [cut, List.nil_append]
      split
      · rename_i dot rest
        exact absurd part.symm (other dot (rest ++ more))
      · exact meant

/-! ## Directories -/

/-- The components of the directory that a path with the given components lies in: all but the last.
Neither the root nor the empty path lies in any. -/
def above? (cs : List Component) : Option (List Component) :=
  if cs = [] ∨ cs = [.root] then none else some cs.dropLast

theorem above?_single {c : Component} (inner : c ≠ .root) : above? [c] = some [] :=
  if_neg (by simp [inner])

theorem above?_concat (cs : List Component) (c d : Component) :
    above? (cs ++ [c] ++ [d]) = some (cs ++ [c]) := by
  have more : ¬ (cs ++ [c] ++ [d] = [] ∨ cs ++ [c] ++ [d] = [.root]) := by
    rintro (none | single)
    · simp at none
    · simpa using congrArg List.length single
  rw [above?, if_neg more, List.dropLast_concat]

/-- However a path is spelled, the directory that it lies in has all its components but the last. -/
theorem parent?_components (p : Path) : p.parent?.map (·.components) = above? p.components := by
  unfold Path.parent?
  rcases List.eq_nil_or_concat' p.steps with none | ⟨front, ⟨d, finish⟩, steps⟩
  · cases absolute : p.isAbsolute with
    | true => simp [Path.steps, absolute] at none
    | false =>
      have empty : p.components = [] := by rw [Path.components, none]; rfl
      rw [Path.ancestorEnds, none, absolute, empty]
      rfl
  · rcases List.eq_nil_or_concat' front with rfl | ⟨before, ⟨c, stop⟩, rfl⟩
    · have single : p.components = [d] := by rw [Path.components, steps]; rfl
      rw [Path.ancestorEnds, steps, single]
      cases absolute : p.isAbsolute with
      | true =>
        obtain ⟨cs, -, rooted⟩ := absolute_components absolute
        rw [single] at rooted
        cases rooted
        rfl
      | false =>
        rw [above?_single fun root => ?_]
        · rfl
        · rw [isAbsolute_of_components (single.trans (congrArg (· :: []) root))] at absolute
          cases absolute
    · have cut := upTo_steps (steps.trans (List.append_assoc ..))
      have ends : p.ancestorEnds.dropLast.getLast? = some stop := by
        rw [Path.ancestorEnds, steps, List.map_append, List.map_singleton, ← List.append_assoc,
          List.dropLast_concat, List.map_append, List.map_singleton, ← List.append_assoc,
          List.getLast?_concat]
      rw [ends, Option.map_some, Option.map_some, Path.components, cut, Path.components, steps,
        List.map_append, List.map_append, List.map_append, List.map_singleton, List.map_singleton,
        above?_concat]

end Steps

/-- The path lies in the directory. -/
def LiesIn (dir p : Path) : Prop :=
  p.parent?.any (·.same dir) = true

instance (dir p : Path) : Decidable (LiesIn dir p) :=
  inferInstanceAs (Decidable (_ = _))

theorem liesIn_iff {dir p : Path} : LiesIn dir p ↔ above? p.components = some dir.components := by
  rw [← parent?_components, LiesIn, Option.any_eq_true, Option.map_eq_some_iff]
  simp only [same_iff]

/-- Two spellings of one path lie in the same directories, which are told by their components too. -/
theorem liesIn_congr {dir dir' p p' : Path} (dirs : dir.components = dir'.components)
    (paths : p.components = p'.components) : LiesIn dir p ↔ LiesIn dir' p' := by
  rw [liesIn_iff, liesIn_iff, dirs, paths]

end PackageLoader.PathParents
