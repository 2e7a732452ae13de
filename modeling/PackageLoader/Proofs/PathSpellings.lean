import Mathlib.Data.List.Flatten
import PackageLoader.Proofs.Subdirectories

/-! Paths in any spelling. The components of a path are told by what stands between its separators, so
joining puts components behind each other, the path above another one has all components but the last,
and no spelling of the same components is shorter than the normal form. -/
namespace PackageLoader.PathSpellings
open PathNormalForm Subdirectories

/-! ## Pieces -/

/-- What stands between the separators of a text. -/
def pieces (cs : List Char) : List String :=
  (Path.segmentsFrom cs [] 0).map (·.1)

/-- Where a text starts makes no difference to its segments. -/
theorem segmentsFrom_map_fst (cs seen : List Char) (position position' : Nat) :
    (Path.segmentsFrom cs seen position).map (·.1) =
      (Path.segmentsFrom cs seen position').map (·.1) := by
  have pending (seen : List Char) (position position' : Nat) :
      (underway seen position).map (·.1) = (underway seen position').map (·.1) := by
    unfold underway
    split <;> rfl
  induction cs generalizing seen position position' with
  | nil =>
    rw [segmentsFrom_nil, segmentsFrom_nil]
    exact pending seen position position'
  | cons c cs ih =>
    by_cases separator : c = '/'
    · subst separator
      rw [segmentsFrom_separator, segmentsFrom_separator, List.map_append, List.map_append,
        pending seen position position', ih [] (position + 1) (position' + 1)]
    · rw [segmentsFrom_character separator, segmentsFrom_character separator]
      exact ih (c :: seen) (position + 1) (position' + 1)

/-- A separator parts a text. -/
theorem pieces_append (front back : List Char) :
    pieces (front ++ '/' :: back) = pieces front ++ pieces back := by
  unfold pieces
  rw [segmentsFrom_append, List.map_append, segmentsFrom_map_fst back [] _ 0]

theorem pieces_separator_last (cs : List Char) : pieces (cs ++ ['/']) = pieces cs := by
  unfold pieces
  rw [segmentsFrom_separator_last]

/-- A text without separators is one piece. -/
theorem pieces_single {cs : List Char} (filled : cs ≠ []) (single : '/' ∉ cs) :
    pieces cs = [String.ofList cs] := by
  have unread : cs.reverse ≠ [] := by simpa using filled
  have read := segmentsFrom_segment single [] [] 0
  rw [List.append_nil, segmentsFrom_nil, List.append_nil, underway, if_neg unread,
    List.reverse_reverse] at read
  unfold pieces
  rw [read]
  rfl

/-- Names joined by separators are the pieces of the text. -/
theorem pieces_intercalate {names : List String} (some : names ≠ [])
    (valid : ∀ name ∈ names, IsSegment name) : pieces ("/".intercalate names).toList = names := by
  obtain ⟨name, rest, rfl⟩ := List.exists_cons_of_ne_nil some
  have text : spelled (name :: rest) = [] ++ '/' :: ("/".intercalate (name :: rest)).toList := by
    rw [toList_intercalate]
    rfl
  have read : pieces (spelled (name :: rest)) = name :: rest := by
    rw [pieces, segmentsFrom_spelled valid, underway, if_pos rfl, List.nil_append, ends_map_fst]
  rwa [text, pieces_append] at read

/-- A text that does not start with a separator has a first piece. -/
theorem exists_piece {cs : List Char} (filled : cs ≠ []) (relative : cs.head? ≠ some '/') :
    ∃ piece rest, pieces cs = piece :: rest := by
  by_cases single : '/' ∈ cs
  · obtain ⟨front, back, rfl, unseparated⟩ := List.eq_append_cons_of_mem single
    have some : front ≠ [] := fun none => relative (by rw [none]; rfl)
    exact ⟨_, _, by rw [pieces_append, pieces_single some unseparated]; rfl⟩
  · exact ⟨_, _, pieces_single filled single⟩

/-- Only the empty path has no components. -/
theorem components_filled {p : Path} (filled : p.text.toList ≠ []) : p.components ≠ [] := by
  rw [components_eq]
  split
  · exact List.cons_ne_nil _ _
  · rename_i relative
    obtain ⟨piece, rest, parts⟩ := exists_piece filled (by simpa [Path.isAbsolute] using relative)
    have parts : p.segments.map (·.1) = piece :: rest := parts
    rw [parts]
    split
    · exact List.cons_ne_nil _ _
    · rename_i other
      have named : piece ≠ "." := fun dot => other rest (by rw [dot])
      by_cases parent : piece = ".." <;> simp [meaning?, Path.innerStep, named, parent]

/-- What is put behind a text without a separator at its end belongs to its last piece. -/
theorem pieces_extend {cs : List Char} (filled : cs ≠ []) (inside : cs.getLast? ≠ some '/') :
    ∃ before segment, segment ≠ [] ∧
      ∀ more, '/' ∉ more → pieces (cs ++ more) = before ++ [String.ofList (segment ++ more)] := by
  by_cases single : '/' ∈ cs
  · obtain ⟨back, front, parts, unseparated⟩ :=
      List.eq_append_cons_of_mem (List.mem_reverse.mpr single)
    have text : cs = front.reverse ++ '/' :: back.reverse := by
      rw [← List.reverse_reverse cs, parts]
      simp
    have rest : back.reverse ≠ [] := by
      intro empty
      rw [text, empty] at inside
      simp at inside
    refine ⟨pieces front.reverse, back.reverse, rest, fun more plain => ?_⟩
    have last : pieces (back.reverse ++ more) = [String.ofList (back.reverse ++ more)] :=
      pieces_single (by simp [rest]) (by simp [unseparated, plain])
    rw [text, List.append_assoc, List.cons_append, pieces_append, last]
  · exact ⟨[], cs, filled, fun more plain =>
      pieces_single (by simp [filled]) (by simp [single, plain])⟩

/-! ## Joining -/

theorem exists_absolute_text {p : Path} (absolute : p.isAbsolute = true) :
    ∃ rest, p.text.toList = '/' :: rest := by
  unfold Path.isAbsolute at absolute
  cases text : p.text.toList with
  | nil => simp [text] at absolute
  | cons c rest => exact ⟨rest, by simpa [text] using absolute⟩

theorem filled_of_isAbsolute {p : Path} (absolute : p.isAbsolute = true) : p.text.toList ≠ [] := by
  obtain ⟨rest, text⟩ := exists_absolute_text absolute
  simp [text]

section Joining

variable {base : Path} {cs : List Char}

/-- Joining a relative path puts its pieces behind those of the base. -/
theorem join_relative (filled : base.text.toList ≠ []) (relative : cs.head? ≠ some '/') :
    pieces (base.join ⟨String.ofList cs⟩).text.toList = pieces base.text.toList ++ pieces cs := by
  have inside : (Path.mk (String.ofList cs)).isAbsolute = false := by
    simpa [Path.isAbsolute] using relative
  unfold Path.join
  rw [inside, if_neg Bool.false_ne_true]
  split
  · exact absurd (List.getLast?_eq_none_iff.mp ‹_›) filled
  · rename_i last
    obtain ⟨front, text⟩ := List.getLast?_eq_some_iff.mp last
    rw [String.toList_append, text, String.toList_ofList, List.append_assoc, List.singleton_append,
      pieces_append, pieces_separator_last]
  · have separator : "/".toList = ['/'] := rfl
    rw [String.toList_append, String.toList_append, separator, String.toList_ofList,
      List.append_assoc, List.singleton_append, pieces_append]

theorem join_relative_isAbsolute {p : Path} (filled : base.text.toList ≠ [])
    (relative : p.isAbsolute = false) : (base.join p).isAbsolute = base.isAbsolute := by
  unfold Path.join
  rw [relative, if_neg Bool.false_ne_true]
  unfold Path.isAbsolute
  split
  · exact absurd (List.getLast?_eq_none_iff.mp ‹_›) filled
  · rw [String.toList_append, List.head?_append_of_ne_nil _ filled]
  · rw [String.toList_append, String.toList_append, List.append_assoc,
      List.head?_append_of_ne_nil _ filled]

/-- Several names can be put behind a path at once. -/
theorem child_intercalate {p : Path} {names : List String} (filled : p.text.toList ≠ [])
    (some : names ≠ []) (valid : ∀ name ∈ names, IsName name) :
    (p.child ("/".intercalate names)).components = p.components ++ names.map .name := by
  have segments : ∀ name ∈ names, IsSegment name := fun name member => (valid name member).toIsSegment
  obtain ⟨name, rest, rfl⟩ := List.exists_cons_of_ne_nil some
  have relative : (Path.mk ("/".intercalate (name :: rest))).isAbsolute = false := by
    have own := segment_relative (segments name (List.mem_cons_self ..))
    unfold Path.isAbsolute at own ⊢
    rwa [toList_intercalate, List.head?_append_of_ne_nil]
    simpa using (valid name (List.mem_cons_self ..)).filled
  have inside : (("/".intercalate (name :: rest)).toList).head? ≠ .some '/' := by
    simpa [Path.isAbsolute] using relative
  have behind : (p.child ("/".intercalate (name :: rest))).segments.map (·.1) =
      p.segments.map (·.1) ++ name :: rest := by
    have parts := join_relative filled inside
    rwa [String.ofList_toList, pieces_intercalate some segments] at parts
  obtain ⟨-, own, absolute, -⟩ := descend_steps filled valid
  rw [← descend_components p valid, components_eq, components_eq, absolute, own, behind]
  rw [Path.child, join_relative_isAbsolute filled relative]

/-- Where a text starts: at the root, or at the base that it is joined to. -/
def origin (base : Path) (cs : List Char) : List Component :=
  if cs.head? = some '/' then [.root] else base.components

/-- The components of a joined text: where it starts, and behind this what its pieces stand for. -/
theorem join_components (absolute : base.isAbsolute = true) (cs : List Char) :
    (base.join ⟨String.ofList cs⟩).components = origin base cs ++ (pieces cs).filterMap meaning? := by
  have components {p : Path} (absolute : p.isAbsolute = true) :
      p.components = .root :: (pieces p.text.toList).filterMap meaning? := by
    rw [components_eq, if_pos absolute]
    rfl
  rw [components (join_isAbsolute absolute _)]
  unfold origin
  split
  · rename_i rooted
    have alone : base.join ⟨String.ofList cs⟩ = ⟨String.ofList cs⟩ :=
      if_pos (by simpa [Path.isAbsolute] using rooted)
    rw [alone, String.toList_ofList]
    rfl
  · rename_i relative
    rw [join_relative (filled_of_isAbsolute absolute) relative, List.filterMap_append,
      components absolute]
    rfl

/-- No dot is left among the components of an absolute path. -/
theorem components_filter {p : Path} (absolute : p.isAbsolute = true) :
    p.components.filter (· ≠ .current) = p.components := by
  obtain ⟨inner, proper, same⟩ := absolute_components absolute
  rw [same]
  refine List.filter_eq_self.mpr fun c member => ?_
  rcases List.mem_cons.mp member with rfl | later
  · rfl
  · rcases proper c later with rfl | ⟨name, -, rfl⟩ <;> rfl

/-- A text is made absolute by spelling the components that it has behind the base. -/
theorem absolutize_eq_origin (absolute : base.isAbsolute = true) (cs : List Char) :
    base.absolutize ⟨String.ofList cs⟩ =
      .ofComponents (origin base cs ++ (pieces cs).filterMap meaning?) := by
  rw [Path.absolutize, components_filter (join_isAbsolute absolute _), join_components absolute]

/-- Absolute paths have the same spelling in normal form only if they have the same components. -/
theorem ofComponents_inj {p q : Path} (absoluteP : p.isAbsolute = true)
    (absoluteQ : q.isAbsolute = true)
    (same : Path.ofComponents p.components = .ofComponents q.components) :
    p.components = q.components := by
  obtain ⟨cs, innerP, componentsP⟩ := absolute_components absoluteP
  obtain ⟨ds, innerQ, componentsQ⟩ := absolute_components absoluteQ
  rw [componentsP, componentsQ] at same ⊢
  rw [← components_ofComponents innerP, same, components_ofComponents innerQ]

end Joining

/-! ## Normal form -/

/-- The pieces of a text with one separator in front of each are left of it when characters are
dropped. -/
theorem spelled_sublist (cs seen : List Char) (position : Nat) :
    (spelled ((Path.segmentsFrom cs seen position).map (·.1))).Sublist ('/' :: seen.reverse ++ cs) := by
  have pending (seen : List Char) (position : Nat) :
      (spelled ((underway seen position).map (·.1))).Sublist ('/' :: seen.reverse) := by
    unfold underway
    split
    · exact List.nil_sublist _
    · simp [spelled]
  induction cs generalizing seen position with
  | nil =>
    rw [segmentsFrom_nil, List.append_nil]
    exact pending seen position
  | cons c cs ih =>
    by_cases separator : c = '/'
    · subst separator
      have parts : ∀ a b, spelled (a ++ b) = spelled a ++ spelled b := by simp [spelled]
      rw [segmentsFrom_separator, List.map_append, parts]
      exact (pending seen position).append (ih [] (position + 1))
    · rw [segmentsFrom_character separator]
      simpa using ih (c :: seen) (position + 1)

/-- What pieces stand for is spelled like them, without the dots that stand for nothing. -/
theorem texts_meanings (segments : List String) :
    (segments.filterMap meaning?).map Component.text = segments.filter (· ≠ ".") := by
  induction segments with
  | nil => rfl
  | cons segment rest ih =>
    rw [List.filterMap_cons, List.filter_cons]
    by_cases current : segment = "."
    · simpa [current, meaning?, Path.innerStep] using ih
    · by_cases parent : segment = ".."
      · simpa [parent, meaning?, Path.innerStep, Component.text] using ih
      · simpa [current, parent, meaning?, Path.innerStep, Component.text] using ih

section NormalForm

variable {p : Path}

/-- The pieces that the normal form of an absolute path has. -/
def walked (p : Path) : List String :=
  (pieces p.text.toList).filter (· ≠ ".")

theorem spelled_pieces (absolute : p.isAbsolute = true) :
    (spelled (pieces p.text.toList)).Sublist p.text.toList := by
  obtain ⟨rest, text⟩ := exists_absolute_text absolute
  have read := spelled_sublist rest [] 1
  rw [text]
  exact read

theorem components_absolute (absolute : p.isAbsolute = true) : ∃ cs, (∀ c ∈ cs, IsInner c) ∧
    p.components = .root :: cs ∧ cs.map Component.text = walked p := by
  obtain ⟨cs, inner, components⟩ := absolute_components absolute
  refine ⟨cs, inner, components, ?_⟩
  rw [components_eq, if_pos absolute, List.cons.injEq] at components
  rw [walked, ← texts_meanings, ← components.2]
  rfl

/-- Without any pieces, the normal form is the root, and otherwise it is the spelling of the pieces. -/
theorem normal_text (absolute : p.isAbsolute = true) : (Path.ofComponents p.components).text.toList =
    if walked p = [] then ['/'] else spelled (walked p) := by
  obtain ⟨cs, inner, components, texts⟩ := components_absolute absolute
  rw [components, ← texts]
  rcases List.eq_nil_or_concat' cs with rfl | ⟨front, last, rfl⟩
  · rfl
  · have text := ofComponents_text (fun c member => inner c (List.mem_append_left _ member))
      (inner last (List.mem_append_right _ (List.mem_singleton_self _)))
    rw [text, if_neg (by simp), List.map_append, List.map_singleton]

/-- No spelling is shorter than the normal form, and none has fewer characters. -/
theorem normal_sublist (absolute : p.isAbsolute = true) :
    (Path.ofComponents p.components).text.toList.Sublist p.text.toList := by
  rw [normal_text absolute]
  split
  · obtain ⟨rest, text⟩ := exists_absolute_text absolute
    rw [text]
    exact (List.nil_sublist rest).cons_cons '/'
  · exact (List.filter_sublist.flatMap _).trans (spelled_pieces absolute)

/-- The normal form is walked piece by piece. -/
theorem normal_walkSteps (absolute : p.isAbsolute = true) :
    Disk.walkSteps (Path.ofComponents p.components).text =
      if walked p = [] then ["."] else walked p := by
  obtain ⟨cs, inner, components, texts⟩ := components_absolute absolute
  have text := normal_text absolute
  have read : (Path.mk (Path.ofComponents p.components).text).segments.map (·.1) = walked p := by
    rw [components, ← texts, spells_segments (isSegment_texts inner) (spells_ofComponents inner),
      ends_map_fst]
  unfold Disk.walkSteps
  simp only [read, text]
  rcases List.eq_nil_or_concat' (walked p) with none | ⟨front, last, parts⟩
  · simp [none]
  · have valid : IsSegment last := isSegment_texts inner last (by simp [texts, parts])
    obtain ⟨c, final, other⟩ := spelled_getLast? front valid
    simp [parts, final, other]

end NormalForm

/-! ## Relative paths -/

theorem isInner_of_meaning? {segment : String} (valid : IsSegment segment) {c : Component}
    (means : meaning? segment = some c) : IsInner c := by
  obtain ⟨step, read, rfl⟩ := Option.map_eq_some_iff.mp means
  exact isInner_of_innerStep valid read

/-- Apart from a dot in front, a relative path has steps upwards and names only. -/
theorem relative_components {p : Path} (relative : p.isAbsolute = false) :
    ∀ c ∈ p.components.filter (· ≠ .current), IsInner c := by
  have meant {c : Component} {segments : List String}
      (read : ∀ s ∈ segments, s ∈ p.segments.map (·.1)) (member : c ∈ segments.filterMap meaning?) :
      IsInner c := by
    obtain ⟨segment, listed, means⟩ := List.mem_filterMap.mp member
    obtain ⟨s, from_text, rfl⟩ := List.mem_map.mp (read segment listed)
    exact isInner_of_meaning? (isSegment_of_mem List.not_mem_nil from_text) means
  intro c member
  obtain ⟨listed, other⟩ := List.mem_filter.mp member
  rw [components_eq, if_neg (by simp [relative])] at listed
  split at listed
  · rename_i rest segments
    rcases List.mem_cons.mp listed with rfl | later
    · simp at other
    · exact meant (fun s inside => segments ▸ List.mem_cons_of_mem _ inside) later
  · exact meant (fun _ inside => inside) listed

/-- Nothing but the root makes a path absolute. -/
theorem ofComponents_relative {cs : List Component} (inner : ∀ c ∈ cs, IsInner c) :
    (Path.ofComponents cs).isAbsolute = false := by
  induction cs using List.reverseRecOn with
  | nil => rfl
  | append_singleton cs c ih =>
    have before := ih fun d member => inner d (List.mem_append_left _ member)
    have last := isSegment_text (inner c (List.mem_append_right _ (List.mem_singleton_self _)))
    rw [ofComponents_concat]
    by_cases empty : (Path.ofComponents cs).text.toList = []
    · rw [Path.child, Path.join, segment_relative last, if_neg Bool.false_ne_true, empty]
      exact segment_relative last
    · rw [child_isAbsolute empty last, before]

/-- What is absolute after it was made so is in normal form. -/
theorem absolutize_absolute {base p : Path} (absolute : (base.absolutize p).isAbsolute = true) :
    ∃ cs, (∀ c ∈ cs, IsInner c) ∧ base.absolutize p = .ofComponents (.root :: cs) := by
  by_cases joined : (base.join p).isAbsolute = true
  · obtain ⟨cs, inner, components⟩ := absolute_components joined
    refine ⟨cs, inner, ?_⟩
    rw [Path.absolutize, components_filter joined, components]
  · rw [Bool.not_eq_true] at joined
    rw [Path.absolutize, ofComponents_relative (relative_components joined)] at absolute
    cases absolute

/-- Only absolute paths start with the root. -/
theorem isAbsolute_of_components {p : Path} {cs : List Component} (starts : p.components = .root :: cs) :
    p.isAbsolute = true := by
  by_contra relative
  rw [Bool.not_eq_true] at relative
  have inner := relative_components relative .root (by simp [starts])
  rcases inner with same | ⟨name, -, same⟩ <;> cases same

theorem same_iff {p q : Path} : p.same q = true ↔ p.components = q.components :=
  beq_iff_eq

end PackageLoader.PathSpellings
