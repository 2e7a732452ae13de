import Mathlib.Data.List.Basic
import Mathlib.Data.List.Induction
import PackageLoader.Storage.Disk

/-! Paths in normal form. A list of names has one spelling, which is what joining the names one by
one gives, and reading that spelling gives the names back. A separator at the end changes the
spelling and nothing else, and is lost again in every path below. -/
namespace PackageLoader.PathNormalForm
open Disk

/-- What stands between two separators. -/
structure IsSegment (segment : String) : Prop where
  filled : segment ≠ ""
  single : '/' ∉ segment.toList

/-- What an entry of a directory can be called. -/
structure IsName (name : String) : Prop extends IsSegment name where
  noCurrent : name ≠ "."
  noParent : name ≠ ".."

instance (name : String) : Decidable (IsName name) :=
  decidable_of_iff (name ≠ "" ∧ '/' ∉ name.toList ∧ name ≠ "." ∧ name ≠ "..")
    ⟨fun ⟨filled, single, noCurrent, noParent⟩ => ⟨⟨filled, single⟩, noCurrent, noParent⟩,
      fun valid => ⟨valid.filled, valid.single, valid.noCurrent, valid.noParent⟩⟩

/-! ## Segments -/

/-- Segments, each behind a separator. -/
def spelled (segments : List String) : List Char :=
  segments.flatMap fun segment => '/' :: segment.toList

/-- Segments that are spelled from a position, and where each ends. -/
def ends : Nat → List String → List (String × Nat)
  | _, [] => []
  | position, segment :: rest =>
    (segment, position + 1 + segment.toList.length) ::
      ends (position + 1 + segment.toList.length) rest

theorem spelled_concat (segments : List String) (last : String) :
    spelled (segments ++ [last]) = spelled segments ++ '/' :: last.toList := by
  simp [spelled]

theorem ends_map_fst (position : Nat) (segments : List String) :
    (ends position segments).map (·.1) = segments := by
  induction segments generalizing position with
  | nil => rfl
  | cons head rest ih => rw [ends, List.map_cons, ih]

/-- The segment under way, if there is one. -/
def underway (seen : List Char) (position : Nat) : List (String × Nat) :=
  if seen = [] then [] else [(String.ofList seen.reverse, position)]

theorem segmentsFrom_nil (seen : List Char) (position : Nat) :
    Path.segmentsFrom [] seen position = underway seen position := by
  cases seen <;> rfl

theorem segmentsFrom_separator (rest seen : List Char) (position : Nat) :
    Path.segmentsFrom ('/' :: rest) seen position =
      underway seen position ++ Path.segmentsFrom rest [] (position + 1) := by
  cases seen with
  | nil => rfl
  | cons c seen =>
    rw [Path.segmentsFrom]
    · rfl
    · exact List.cons_ne_nil _ _

theorem segmentsFrom_character {c : Char} (inner : c ≠ '/') (rest seen : List Char)
    (position : Nat) : Path.segmentsFrom (c :: rest) seen position =
      Path.segmentsFrom rest (c :: seen) (position + 1) := by
  rw [Path.segmentsFrom]
  · exact inner
  · exact fun _ => inner

theorem segmentsFrom_segment {segment : List Char} (single : '/' ∉ segment) (rest seen : List Char)
    (position : Nat) : Path.segmentsFrom (segment ++ rest) seen position =
      Path.segmentsFrom rest (segment.reverse ++ seen) (position + segment.length) := by
  induction segment generalizing seen position with
  | nil => rfl
  | cons c segment ih =>
    have inner : c ≠ '/' := fun same => single (same ▸ List.mem_cons_self ..)
    have step := ih (fun member => single (List.mem_cons_of_mem _ member)) (c :: seen) (position + 1)
    rw [List.cons_append, segmentsFrom_character inner, step, List.reverse_cons, List.append_assoc,
      List.length_cons, List.singleton_append, Nat.add_right_comm, Nat.add_assoc]

theorem segmentsFrom_spelled {segments : List String} (valid : ∀ s ∈ segments, IsSegment s)
    (seen : List Char) (position : Nat) : Path.segmentsFrom (spelled segments) seen position =
      underway seen position ++ ends position segments := by
  induction segments generalizing seen position with
  | nil => rw [ends, List.append_nil]; exact segmentsFrom_nil seen position
  | cons head rest ih =>
    obtain ⟨filled, single⟩ := valid head (List.mem_cons_self ..)
    have unread : head.toList.reverse ≠ [] := by simpa using filled
    have first : spelled (head :: rest) = '/' :: (head.toList ++ spelled rest) := rfl
    rw [first, segmentsFrom_separator, segmentsFrom_segment single,
      ih fun s member => valid s (List.mem_cons_of_mem _ member), List.append_nil, underway,
      underway, if_neg unread, List.reverse_reverse, String.ofList_toList]
    rfl

/-- A separator at the end makes no segment. -/
theorem segmentsFrom_separator_last (cs seen : List Char) (position : Nat) :
    Path.segmentsFrom (cs ++ ['/']) seen position = Path.segmentsFrom cs seen position := by
  induction cs generalizing seen position with
  | nil =>
    rw [List.nil_append, segmentsFrom_separator, segmentsFrom_nil, segmentsFrom_nil]
    exact List.append_nil _
  | cons c cs ih =>
    rw [List.cons_append]
    by_cases separator : c = '/'
    · subst separator
      rw [segmentsFrom_separator, segmentsFrom_separator, ih]
    · rw [segmentsFrom_character separator, segmentsFrom_character separator, ih]

/-- Every segment that is read is one. -/
theorem isSegment_of_mem {cs seen : List Char} {position : Nat} (unread : '/' ∉ seen)
    {s : String × Nat} (member : s ∈ Path.segmentsFrom cs seen position) : IsSegment s.1 := by
  have pending {seen : List Char} {position : Nat} (unread : '/' ∉ seen)
      (member : s ∈ underway seen position) : IsSegment s.1 := by
    unfold underway at member
    split at member
    · cases member
    · rename_i filled
      rw [List.mem_singleton.mp member]
      exact ⟨by simpa [← String.toList_inj] using filled, by simpa using unread⟩
  induction cs generalizing seen position with
  | nil => exact pending unread (segmentsFrom_nil seen position ▸ member)
  | cons c cs ih =>
    by_cases separator : c = '/'
    · rw [separator, segmentsFrom_separator] at member
      rcases List.mem_append.mp member with first | later
      · exact pending unread first
      · exact ih (List.not_mem_nil) later
    · rw [segmentsFrom_character separator] at member
      refine ih (fun inside => ?_) member
      rcases List.mem_cons.mp inside with same | old
      · exact separator same.symm
      · exact unread old

/-! ## Components -/

/-- A component that joining puts behind a path. -/
def IsInner (c : Component) : Prop :=
  c = .parent ∨ ∃ name, IsName name ∧ c = .name name

theorem isSegment_text {c : Component} (inner : IsInner c) : IsSegment c.text := by
  rcases inner with rfl | ⟨name, valid, rfl⟩
  · exact ⟨by decide, by decide⟩
  · exact valid.toIsSegment

theorem innerStep_text {c : Component} (inner : IsInner c) (position : Nat) :
    Path.innerStep (c.text, position) = some (c, position) := by
  rcases inner with rfl | ⟨name, valid, rfl⟩
  · rfl
  · simp [Path.innerStep, Component.text, valid.noCurrent, valid.noParent]

/-- What a segment means is either nothing or can be joined. -/
theorem isInner_of_innerStep {s : String × Nat} (segment : IsSegment s.1) {c : Component × Nat}
    (means : Path.innerStep s = some c) : IsInner c.1 := by
  unfold Path.innerStep at means
  split at means
  · cases means
  · rename_i noCurrent
    split at means
    · cases means
      exact Or.inl rfl
    · rename_i noParent
      cases means
      exact Or.inr ⟨s.1, ⟨segment, noCurrent, noParent⟩, rfl⟩

/-- The path spells the segments from the root, perhaps with a separator at the end. -/
def Spells (p : Path) (segments : List String) : Prop :=
  segments ≠ [] ∧ p.text.toList = spelled segments ∨ p.text.toList = spelled segments ++ ['/']

theorem spelled_getLast? (segments : List String) {last : String} (valid : IsSegment last) :
    ∃ c, (spelled (segments ++ [last])).getLast? = some c ∧ c ≠ '/' := by
  have filled : last.toList ≠ [] := by simpa using valid.filled
  refine ⟨last.toList.getLast filled, ?_, fun same => ?_⟩
  · rw [spelled_concat, List.getLast?_append, List.getLast?_cons, List.getLast?_eq_some_getLast filled]
    rfl
  · exact valid.single (same ▸ List.getLast_mem filled)

theorem spells_isAbsolute {p : Path} {segments : List String} (spells : Spells p segments) :
    p.isAbsolute = true := by
  unfold Path.isAbsolute
  rcases spells with ⟨filled, text⟩ | text
  · obtain ⟨head, rest, rfl⟩ := List.exists_cons_of_ne_nil filled
    rw [text]
    rfl
  · rw [text]
    cases segments <;> rfl

theorem isEmpty_of_isAbsolute {p : Path} (absolute : p.isAbsolute = true) : p.text.isEmpty = false := by
  by_contra empty
  rw [Bool.not_eq_false, String.isEmpty_iff] at empty
  simp [Path.isAbsolute, empty] at absolute

theorem spells_segments {p : Path} {segments : List String} (valid : ∀ s ∈ segments, IsSegment s)
    (spells : Spells p segments) : p.segments = ends 0 segments := by
  have read := segmentsFrom_spelled valid [] 0
  unfold Path.segments
  rcases spells with ⟨-, text⟩ | text
  · rw [text, read]
    rfl
  · rw [text, segmentsFrom_separator_last, read]
    rfl

theorem spells_join {p : Path} {segments : List String} {below : String}
    (valid : ∀ s ∈ segments, IsSegment s) (spells : Spells p segments)
    (relative : (Path.mk below).isAbsolute = false) :
    (p.child below).text.toList = spelled segments ++ '/' :: below.toList := by
  unfold Path.child Path.join
  rw [relative, if_neg Bool.false_ne_true]
  rcases spells with ⟨filled, text⟩ | text
  · rcases List.eq_nil_or_concat' segments with rfl | ⟨before, final, rfl⟩
    · exact absurd rfl filled
    · obtain ⟨c, last, inner⟩ := spelled_getLast? before
        (valid final (List.mem_append_right _ (List.mem_singleton_self _)))
      rw [text, last]
      split
      · cases ‹some c = none›
      · cases ‹some c = some '/'›
        exact absurd rfl inner
      · simp [text]
  · rw [text, List.getLast?_concat]
    simp [text]

theorem segment_relative {segment : String} (valid : IsSegment segment) :
    (Path.mk segment).isAbsolute = false := by
  unfold Path.isAbsolute
  cases text : segment.toList with
  | nil => rfl
  | cons c cs =>
    have inner : c ≠ '/' := fun same => valid.single (text ▸ same ▸ List.mem_cons_self ..)
    simp [inner]

/-- Joining a segment leaves no separator at the end. -/
theorem spells_child {p : Path} {segments : List String} {last : String}
    (valid : ∀ s ∈ segments, IsSegment s) (spells : Spells p segments) (segment : IsSegment last) :
    (p.child last).text.toList = spelled (segments ++ [last]) := by
  rw [spells_join valid spells (segment_relative segment), spelled_concat]

/-! ## Normal form -/

theorem ofComponents_concat (cs : List Component) (c : Component) :
    Path.ofComponents (cs ++ [c]) = (Path.ofComponents cs).child c.text := by
  rw [Path.ofComponents, List.foldl_append]
  rfl

theorem isSegment_texts {cs : List Component} (inner : ∀ c ∈ cs, IsInner c) :
    ∀ s ∈ cs.map Component.text, IsSegment s := by
  intro s member
  obtain ⟨c, present, rfl⟩ := List.mem_map.mp member
  exact isSegment_text (inner c present)

theorem spells_ofComponents {cs : List Component} (inner : ∀ c ∈ cs, IsInner c) :
    Spells (.ofComponents (.root :: cs)) (cs.map Component.text) := by
  induction cs using List.reverseRecOn with
  | nil => exact Or.inr rfl
  | append_singleton cs last ih =>
    have before : ∀ c ∈ cs, IsInner c := fun c member => inner c (List.mem_append_left _ member)
    have final := inner last (List.mem_append_right _ (List.mem_singleton_self _))
    rw [← List.cons_append, ofComponents_concat, List.map_append]
    exact Or.inl ⟨by simp, spells_child (isSegment_texts before) (ih before) (isSegment_text final)⟩

theorem ends_innerStep {cs : List Component} (inner : ∀ c ∈ cs, IsInner c) (position : Nat) :
    ((ends position (cs.map Component.text)).filterMap Path.innerStep).map (·.1) = cs ∧
      ((ends position (cs.map Component.text)).filterMap Path.innerStep).map (·.2) =
        (ends position (cs.map Component.text)).map (·.2) := by
  induction cs generalizing position with
  | nil => exact ⟨rfl, rfl⟩
  | cons head rest ih =>
    have first := innerStep_text (inner head (List.mem_cons_self ..))
    have later := ih (fun c member => inner c (List.mem_cons_of_mem _ member))
    simp only [List.map_cons, ends, List.filterMap_cons, first, later, and_self]

theorem spells_steps {p : Path} {cs : List Component} (inner : ∀ c ∈ cs, IsInner c)
    (spells : Spells p (cs.map Component.text)) : p.components = .root :: cs ∧
      p.steps.map (·.2) = 1 :: (ends 0 (cs.map Component.text)).map (·.2) := by
  obtain ⟨first, second⟩ := ends_innerStep inner 0
  unfold Path.components Path.steps
  rw [spells_isAbsolute spells, if_pos rfl, spells_segments (isSegment_texts inner) spells,
    List.map_cons, List.map_cons, first, second]
  exact ⟨rfl, rfl⟩

/-- Reading the spelling of components gives them back. -/
theorem components_ofComponents {cs : List Component} (inner : ∀ c ∈ cs, IsInner c) :
    (Path.ofComponents (.root :: cs)).components = .root :: cs :=
  (spells_steps inner (spells_ofComponents inner)).1

/-- The path is absolute and leads through the given names, with nothing else in it than a separator
in front of each and perhaps one at the end. -/
structure Leads (p : Path) (names : List String) : Prop where
  valid : ∀ name ∈ names, IsName name
  spells : Spells p names

theorem isInner_names {names : List String} (valid : ∀ name ∈ names, IsName name) :
    ∀ c ∈ names.map Component.name, IsInner c := by
  intro c member
  obtain ⟨name, present, rfl⟩ := List.mem_map.mp member
  exact Or.inr ⟨name, valid name present, rfl⟩

@[simp] theorem texts_names (names : List String) :
    (names.map Component.name).map Component.text = names := by
  simp [Function.comp_def, Component.text]

theorem leads_canonicalPath {names : List String} (valid : ∀ name ∈ names, IsName name) :
    Leads (canonicalPath names) names := by
  refine ⟨valid, ?_⟩
  have spells := spells_ofComponents (isInner_names valid)
  rwa [texts_names] at spells

theorem leads_steps {p : Path} {names : List String} (leads : Leads p names) :
    p.components = .root :: names.map .name ∧
      p.steps.map (·.2) = 1 :: (ends 0 names).map (·.2) := by
  have steps := spells_steps (isInner_names leads.valid) (by rw [texts_names]; exact leads.spells)
  rwa [texts_names] at steps

theorem leads_segments {p : Path} {names : List String} (leads : Leads p names) :
    p.segments.map (·.1) = names := by
  rw [spells_segments (fun s member => (leads.valid s member).toIsSegment) leads.spells,
    ends_map_fst]

theorem spelled_canonicalPath {names : List String} (valid : ∀ name ∈ names, IsName name)
    (filled : names ≠ []) : (canonicalPath names).text.toList = spelled names := by
  rcases List.eq_nil_or_concat' names with rfl | ⟨before, last, rfl⟩
  · exact absurd rfl filled
  · have early : ∀ name ∈ before, IsName name := fun name member =>
      valid name (List.mem_append_left _ member)
    have final := valid last (List.mem_append_right _ (List.mem_singleton_self _))
    rw [canonicalPath, List.map_append, ← List.cons_append, List.map_singleton, ofComponents_concat]
    exact spells_child (fun s member => (early s member).toIsSegment)
      (leads_canonicalPath early).spells final.toIsSegment

theorem names_concat {names : List String} {name : String} (valid : ∀ n ∈ names, IsName n)
    (last : IsName name) : ∀ n ∈ names ++ [name], IsName n := by
  intro n member
  rcases List.mem_append.mp member with old | new
  · exact valid n old
  · exact List.mem_singleton.mp new ▸ last

/-- Whatever is below a path has one spelling. -/
theorem leads_child {p : Path} {names : List String} {name : String} (leads : Leads p names)
    (last : IsName name) : p.child name = canonicalPath (names ++ [name]) := by
  have text := spells_child (fun s member => (leads.valid s member).toIsSegment) leads.spells
    last.toIsSegment
  have normal := spelled_canonicalPath (names_concat leads.valid last) (by simp)
  exact congrArg Path.mk (String.toList_inj.mp (text.trans normal.symm))

theorem toList_intercalate (name : String) (rest : List String) :
    ("/".intercalate (name :: rest)).toList = name.toList ++ spelled rest := by
  rw [String.toList_intercalate]
  induction rest generalizing name with
  | nil => simp [List.intercalate, spelled]
  | cons next rest ih =>
    have later := ih next
    simp only [List.map_cons, List.intercalate, List.intersperse_cons_cons, List.flatten_cons] at later ⊢
    rw [later]
    simp [spelled]

/-- Several names can be put behind a path at once. -/
theorem leads_intercalate {p : Path} {names below : List String} (leads : Leads p names)
    (valid : ∀ name ∈ below, IsName name) : Leads (p.child ("/".intercalate below)) (names ++ below) := by
  have segments : ∀ s ∈ names, IsSegment s := fun s member => (leads.valid s member).toIsSegment
  constructor
  · intro name member
    exact (List.mem_append.mp member).elim (leads.valid name) (valid name)
  cases below with
  | nil =>
    rw [List.append_nil]
    exact Or.inr (spells_join segments leads.spells rfl)
  | cons name rest =>
    have first := (valid name (List.mem_cons_self ..)).toIsSegment
    have relative : (Path.mk ("/".intercalate (name :: rest))).isAbsolute = false := by
      have start := segment_relative first
      unfold Path.isAbsolute at start ⊢
      rw [toList_intercalate]
      cases text : name.toList with
      | nil => exact absurd (String.toList_eq_nil_iff.mp text) first.filled
      | cons c cs => simpa [text] using start
    refine Or.inl ⟨by simp, ?_⟩
    rw [spells_join segments leads.spells relative, toList_intercalate]
    simp [spelled]

theorem canonicalPath_components {names : List String} (valid : ∀ name ∈ names, IsName name) :
    (canonicalPath names).components = .root :: names.map .name :=
  (leads_steps (leads_canonicalPath valid)).1

theorem ends_getLast? (position : Nat) (names : List String) :
    (position :: (ends position names).map (·.2)).getLast? =
      some (position + (spelled names).length) := by
  induction names generalizing position with
  | nil => rfl
  | cons head rest ih =>
    have width : (spelled (head :: rest)).length =
        1 + head.toList.length + (spelled rest).length := by
      have first : spelled (head :: rest) = '/' :: (head.toList ++ spelled rest) := rfl
      rw [first, List.length_cons, List.length_append]
      omega
    rw [ends, List.map_cons, List.getLast?_cons_cons, ih, width]
    congr 1
    omega

/-- Where the last name ends does not depend on what stands in front. -/
theorem ends_last (start position : Nat) {names : List String} (filled : names ≠ []) :
    (start :: (ends position names).map (·.2)).getLast? =
      some (position + (spelled names).length) := by
  obtain ⟨head, rest, rfl⟩ := List.exists_cons_of_ne_nil filled
  have stop := ends_getLast? position (head :: rest)
  rw [ends, List.map_cons, List.getLast?_cons_cons] at stop ⊢
  exact stop

theorem ends_concat (position : Nat) (names : List String) (last : String) :
    ∃ finish, ends position (names ++ [last]) = ends position names ++ [(last, finish)] := by
  induction names generalizing position with
  | nil => exact ⟨_, rfl⟩
  | cons head rest ih =>
    obtain ⟨finish, later⟩ := ih (position + 1 + head.toList.length)
    exact ⟨finish, by rw [List.cons_append, ends, ends, later, List.cons_append]⟩

theorem ofComponents_text {cs : List Component} {c : Component} (inner : ∀ c ∈ cs, IsInner c)
    (last : IsInner c) : (Path.ofComponents (.root :: (cs ++ [c]))).text.toList =
      spelled (cs.map Component.text ++ [c.text]) := by
  rw [← List.cons_append, ofComponents_concat]
  exact spells_child (isSegment_texts inner) (spells_ofComponents inner) (isSegment_text last)

/-- A path made of components lies in the path made of all but the last. -/
theorem ofComponents_parent? {cs : List Component} {c : Component} (inner : ∀ c ∈ cs, IsInner c)
    (last : IsInner c) :
    (Path.ofComponents (.root :: (cs ++ [c]))).parent? = some (.ofComponents (.root :: cs)) := by
  have all : ∀ d ∈ cs ++ [c], IsInner d := by
    intro d member
    rcases List.mem_append.mp member with old | new
    · exact inner d old
    · exact List.mem_singleton.mp new ▸ last
  have spells := spells_ofComponents all
  have text := ofComponents_text inner last
  obtain ⟨finish, behind⟩ := ends_concat 0 (cs.map Component.text) c.text
  have stops : (Path.ofComponents (.root :: (cs ++ [c]))).ancestorEnds =
      (1 :: (ends 0 (cs.map Component.text)).map (·.2)) ++ [finish] := by
    rw [Path.ancestorEnds, spells_isAbsolute spells, if_pos rfl, (spells_steps all spells).2,
      List.map_append, List.map_singleton, behind, List.map_append]
    rfl
  rw [Path.parent?, stops, List.dropLast_concat]
  rcases List.eq_nil_or_concat' cs with rfl | ⟨front, d, rfl⟩
  · have upTo : (Path.ofComponents (.root :: ([] ++ [c]))).upTo 1 = .ofComponents [.root] := by
      rw [Path.upTo, text]
      rfl
    exact congrArg some upTo
  · have early : ∀ d ∈ front, IsInner d := fun d member => inner d (List.mem_append_left _ member)
    have final := inner d (List.mem_append_right _ (List.mem_singleton_self _))
    have above := ofComponents_text early final
    rw [ends_last 1 0 (by simp), Nat.zero_add, Option.map_some, Path.upTo, text, spelled_concat,
      List.take_left, List.map_append, List.map_singleton, ← above, String.ofList_toList]

/-- A path in normal form lies in the path in normal form without its last name. -/
theorem canonicalPath_parent? {names : List String} {name : String}
    (valid : ∀ n ∈ names, IsName n) (last : IsName name) :
    (canonicalPath (names ++ [name])).parent? = some (canonicalPath names) := by
  rw [canonicalPath, List.map_append]
  exact ofComponents_parent? (isInner_names valid) (Or.inr ⟨name, last, rfl⟩)

instance : Std.LawfulEqOrd Component where
  eq_of_compare {a b} same := by
    obtain ⟨ranks, texts⟩ := compareLex_eq_eq.mp same
    have rank : a.rank = b.rank := Std.LawfulEqCmp.eq_of_compare ranks
    have text : a.text = b.text := Std.LawfulEqCmp.eq_of_compare texts
    cases a <;> cases b <;> simp_all [Component.rank, Component.text]

theorem compare_canonicalPath {a b : List String} (validA : ∀ name ∈ a, IsName name)
    (validB : ∀ name ∈ b, IsName name) :
    compare (canonicalPath a) (canonicalPath b) = .eq ↔ a = b := by
  have same : compare (canonicalPath a) (canonicalPath b) =
    compare (canonicalPath a).components (canonicalPath b).components := rfl
  rw [same, canonicalPath_components validA, canonicalPath_components validB,
    Std.LawfulEqCmp.compare_eq_iff_eq, List.cons.injEq]
  simp only [true_and]
  exact (List.map_injective_iff.mpr fun _ _ => Component.name.inj).eq_iff

theorem canonicalPath_injective {a b : List String} (validA : ∀ name ∈ a, IsName name)
    (validB : ∀ name ∈ b, IsName name) (same : canonicalPath a = canonicalPath b) : a = b :=
  (compare_canonicalPath validA validB).mp (same ▸ Std.ReflOrd.compare_self)

theorem canonicalPath_same {a b : List String} (validA : ∀ name ∈ a, IsName name)
    (validB : ∀ name ∈ b, IsName name) :
    (canonicalPath a).same (canonicalPath b) = true ↔ canonicalPath a = canonicalPath b := by
  rw [Path.same, beq_iff_eq]
  constructor
  · intro same
    have equal : compare (canonicalPath a) (canonicalPath b) = .eq :=
      show compare (canonicalPath a).components (canonicalPath b).components = .eq from
        same ▸ Std.ReflOrd.compare_self
    rw [(compare_canonicalPath validA validB).mp equal]
  · exact congrArg Path.components

/-- Walking a path takes its names, and stays where it is for a separator at the end. -/
theorem leads_walkSteps {p : Path} {names : List String} (leads : Leads p names) :
    walkSteps p.text = names ∨ walkSteps p.text = names ++ ["."] := by
  have read : (Path.mk p.text).segments.map (·.1) = names := leads_segments leads
  unfold walkSteps
  simp only [read]
  split
  · exact Or.inr rfl
  · exact Or.inl rfl

theorem canonicalPath_walkSteps {names : List String} {name : String}
    (valid : ∀ n ∈ names, IsName n) (last : IsName name) :
    walkSteps (canonicalPath (names ++ [name])).text = names ++ [name] := by
  have all := names_concat valid last
  have read : (Path.mk (canonicalPath (names ++ [name])).text).segments.map (·.1) = names ++ [name] :=
    leads_segments (leads_canonicalPath all)
  obtain ⟨c, final, inner⟩ := spelled_getLast? names last.toIsSegment
  unfold walkSteps
  simp only [read, spelled_canonicalPath all (by simp), final, Option.some.injEq, inner, ↓reduceIte]

/-! ## Absolute paths -/

theorem join_isAbsolute {base : Path} (absolute : base.isAbsolute = true) (p : Path) :
    (base.join p).isAbsolute = true := by
  unfold Path.join
  split
  · assumption
  · unfold Path.isAbsolute at absolute ⊢
    cases text : base.text.toList with
    | nil => simp [text] at absolute
    | cons c cs =>
      rw [text] at absolute
      split
      · simp at *
      · simpa [text] using absolute
      · simpa [text] using absolute

theorem absolute_components {p : Path} (absolute : p.isAbsolute = true) :
    ∃ cs, (∀ c ∈ cs, IsInner c) ∧ p.components = .root :: cs := by
  refine ⟨(p.segments.filterMap Path.innerStep).map (·.1), fun c member => ?_, ?_⟩
  · obtain ⟨step, kept, rfl⟩ := List.mem_map.mp member
    obtain ⟨s, read, means⟩ := List.mem_filterMap.mp kept
    exact isInner_of_innerStep (isSegment_of_mem List.not_mem_nil read) means
  · rw [Path.components, Path.steps, if_pos absolute]
    rfl

theorem names_of_inner {cs : List Component} (inner : ∀ c ∈ cs, IsInner c)
    (downward : .parent ∉ cs) :
    ∃ names : List String, (∀ name ∈ names, IsName name) ∧ cs = names.map .name := by
  induction cs with
  | nil => exact ⟨[], by simp, rfl⟩
  | cons head rest ih =>
    obtain ⟨names, valid, rfl⟩ := ih (fun c member => inner c (List.mem_cons_of_mem _ member))
      (fun member => downward (List.mem_cons_of_mem _ member))
    rcases inner head (List.mem_cons_self ..) with rfl | ⟨name, first, rfl⟩
    · exact absurd (List.mem_cons_self ..) downward
    · refine ⟨name :: names, fun n member => ?_, rfl⟩
      rcases List.mem_cons.mp member with rfl | later
      · exact first
      · exact valid n later

/-- A path that is made absolute is made of components. -/
theorem absolutize_eq {base : Path} (absolute : base.isAbsolute = true) (p : Path) :
    ∃ cs, (∀ c ∈ cs, IsInner c) ∧ base.absolutize p = .ofComponents (.root :: cs) := by
  obtain ⟨cs, inner, components⟩ := absolute_components (join_isAbsolute absolute p)
  have kept : cs.filter (· ≠ .current) = cs := List.filter_eq_self.mpr fun c member => by
    rcases inner c member with rfl | ⟨name, -, rfl⟩ <;> rfl
  refine ⟨cs, inner, ?_⟩
  unfold Path.absolutize
  rw [components, List.filter_cons_of_pos (by decide), kept]

/-- A path that is made absolute is in normal form unless it leads upwards. -/
theorem absolutize_normal {base p : Path} (absolute : base.isAbsolute = true)
    (downward : .parent ∉ (base.absolutize p).components) :
    ∃ names, (∀ name ∈ names, IsName name) ∧ base.absolutize p = canonicalPath names := by
  obtain ⟨cs, inner, made⟩ := absolutize_eq absolute p
  rw [made, components_ofComponents inner] at downward
  obtain ⟨names, valid, rfl⟩ :=
    names_of_inner inner fun member => downward (List.mem_cons_of_mem _ member)
  exact ⟨names, valid, made⟩

theorem ofComponents_isAbsolute {cs : List Component} (inner : ∀ c ∈ cs, IsInner c) :
    (Path.ofComponents (.root :: cs)).isAbsolute = true :=
  spells_isAbsolute (spells_ofComponents inner)

end PackageLoader.PathNormalForm
