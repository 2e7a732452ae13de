import Mathlib.Data.List.Induction
import Mathlib.Data.List.Infix
import PackageLoader.Proofs.LinkFreeDisk

/-! Going down by names. On any disk, links included, a path with further names behind it is resolved
by resolving the path first, and names that stand for real directories are then gone through one by
one. What is walked below such a directory was therefore walked below the path that it starts from. -/
namespace PackageLoader.Subdirectories
open Disk LinkFreeDisk PathNormalForm TableLaws

/-- The path below another one, by names. -/
def descend (p : Path) (names : List String) : Path :=
  names.foldl Path.child p

theorem descend_concat (p : Path) (names : List String) (name : String) :
    descend p (names ++ [name]) = (descend p names).child name :=
  List.foldl_concat ..

/-! ## Spelling -/

theorem segmentsFrom_append (cs rest seen : List Char) (position : Nat) :
    Path.segmentsFrom (cs ++ '/' :: rest) seen position =
      Path.segmentsFrom cs seen position ++ Path.segmentsFrom rest [] (position + cs.length + 1) := by
  induction cs generalizing seen position with
  | nil => rw [List.nil_append, segmentsFrom_separator, segmentsFrom_nil]; rfl
  | cons c cs ih =>
    have further : position + (c :: cs).length + 1 = position + 1 + cs.length + 1 := by
      rw [List.length_cons]
      omega
    rw [List.cons_append, further]
    by_cases separator : c = '/'
    · subst separator
      rw [segmentsFrom_separator, segmentsFrom_separator, ih, List.append_assoc]
    · rw [segmentsFrom_character separator, segmentsFrom_character separator, ih]

/-- A name behind a path stands behind exactly one separator. -/
theorem child_text {p : Path} {name : String} (filled : p.text.toList ≠ []) (valid : IsSegment name) :
    ∃ front, (p.child name).text.toList = front ++ '/' :: name.toList ∧
      (p.text.toList = front ∨ p.text.toList = front ++ ['/']) := by
  unfold Path.child Path.join
  rw [segment_relative valid, if_neg Bool.false_ne_true]
  cases last : p.text.toList.getLast? with
  | none => exact absurd (List.getLast?_eq_none_iff.mp last) filled
  | some c =>
    by_cases separator : c = '/'
    · subst separator
      obtain ⟨front, text⟩ := List.getLast?_eq_some_iff.mp last
      exact ⟨front, by simp [text], Or.inr text⟩
    · refine ⟨p.text.toList, ?_, Or.inl rfl⟩
      split
      · cases ‹some c = none›
      · cases ‹some c = some '/'›
        exact absurd rfl separator
      · simp

/-- A name behind a path is one more segment. -/
theorem child_segments {p : Path} {name : String} (filled : p.text.toList ≠ [])
    (valid : IsSegment name) :
    (p.child name).segments.map (·.1) = p.segments.map (·.1) ++ [name] := by
  obtain ⟨front, text, before⟩ := child_text filled valid
  have own : p.segments = Path.segmentsFrom front [] 0 := by
    unfold Path.segments
    rcases before with same | same
    · rw [same]
    · rw [same, segmentsFrom_separator_last]
  have single (position : Nat) :
      (Path.segmentsFrom name.toList [] position).map (·.1) = [name] := by
    have unread : name.toList.reverse ≠ [] := by simpa using valid.filled
    have read := segmentsFrom_segment valid.single [] [] position
    rw [List.append_nil, segmentsFrom_nil, List.append_nil, underway, if_neg unread] at read
    rw [read, List.reverse_reverse, String.ofList_toList]
    rfl
  rw [own]
  unfold Path.segments
  rw [text, segmentsFrom_append, List.map_append, single]

theorem child_isAbsolute {p : Path} {name : String} (filled : p.text.toList ≠ [])
    (valid : IsSegment name) : (p.child name).isAbsolute = p.isAbsolute := by
  obtain ⟨front, text, before⟩ := child_text filled valid
  unfold Path.isAbsolute
  rcases before with same | same
  · rw [text, same, List.head?_append_of_ne_nil _ (same ▸ filled)]
  · rw [text, same, List.append_cons, List.head?_append_of_ne_nil _ (by simp)]

/-- What a name or dots stand for. -/
def meaning? (segment : String) : Option Component :=
  (Path.innerStep (segment, 0)).map (·.1)

theorem innerSteps_map_fst (segments : List (String × Nat)) :
    (segments.filterMap Path.innerStep).map (·.1) = (segments.map (·.1)).filterMap meaning? := by
  rw [List.map_filterMap, List.filterMap_map]
  congr 1
  funext s
  simp only [Function.comp, meaning?, Path.innerStep]
  split
  · rfl
  · split <;> rfl

/-- The components of a path are told by its segments. -/
theorem components_eq (p : Path) : p.components =
    if p.isAbsolute then .root :: (p.segments.map (·.1)).filterMap meaning?
    else match p.segments.map (·.1) with
      | "." :: rest => .current :: rest.filterMap meaning?
      | all => all.filterMap meaning? := by
  unfold Path.components Path.steps
  split
  · rw [List.map_cons, innerSteps_map_fst]
  · split
    · rename_i same
      simp only [same, List.map_cons, innerSteps_map_fst]
    · rename_i other
      rw [innerSteps_map_fst]
      split
      · rename_i front
        cases segments : p.segments with
        | nil => simp [segments] at front
        | cons s rest =>
          obtain ⟨segment, position⟩ := s
          rw [segments, List.map_cons] at front
          cases front
          exact absurd segments (other _ _)
      · rfl

theorem meaning?_name {name : String} (valid : IsName name) : meaning? name = some (.name name) := by
  simp [meaning?, Path.innerStep, valid.noCurrent, valid.noParent]

theorem name_components {name : String} (valid : IsName name) :
    (Path.mk name).components = [.name name] := by
  have unread : name.toList.reverse ≠ [] := by simpa using valid.filled
  have read := segmentsFrom_segment valid.single [] [] 0
  rw [List.append_nil, segmentsFrom_nil, List.append_nil, underway, if_neg unread] at read
  have segments : (Path.mk name).segments.map (·.1) = [name] := by
    unfold Path.segments
    rw [read, List.reverse_reverse, String.ofList_toList]
    rfl
  rw [components_eq, segment_relative valid.toIsSegment, if_neg Bool.false_ne_true, segments]
  simp [meaning?_name valid, valid.noCurrent]

/-- A name behind a path is one more component, however the path is spelled. -/
theorem child_components (p : Path) {name : String} (valid : IsName name) :
    (p.child name).components = p.components ++ [.name name] := by
  by_cases filled : p.text.toList = []
  · have empty : p = ⟨""⟩ := congrArg Path.mk (String.toList_eq_nil_iff.mp filled)
    have alone : Path.child ⟨""⟩ name = ⟨name⟩ := by
      simp [Path.child, Path.join]
    rw [empty, alone, name_components valid]
    rfl
  · have segments := child_segments filled valid.toIsSegment
    rw [components_eq, components_eq, child_isAbsolute filled valid.toIsSegment, segments]
    have behind (front : List String) :
        (front ++ [name]).filterMap meaning? = front.filterMap meaning? ++ [.name name] := by
      simp [List.filterMap_append, meaning?_name valid]
    split
    · rw [behind, List.cons_append]
    · cases p.segments.map (·.1) with
      | nil => simpa [valid.noCurrent] using behind []
      | cons head rest =>
        by_cases current : head = "."
        · simp [current, behind]
        · simpa [current] using behind (head :: rest)

theorem child_filled (p : Path) {name : String} (valid : IsName name) :
    (p.child name).text.toList ≠ [] := by
  intro empty
  have none : p.child name = ⟨""⟩ := congrArg Path.mk (String.toList_eq_nil_iff.mp empty)
  have parts := child_components p valid
  rw [none] at parts
  exact absurd parts.symm (by simp [show (Path.mk "").components = [] from rfl])

theorem descend_components (p : Path) {names : List String} (valid : ∀ name ∈ names, IsName name) :
    (descend p names).components = p.components ++ names.map .name := by
  induction names using List.reverseRecOn with
  | nil => simp [descend]
  | append_singleton names name ih =>
    have last := valid name (List.mem_append_right _ (List.mem_singleton_self _))
    rw [descend_concat, child_components _ last,
      ih fun n member => valid n (List.mem_append_left _ member), List.map_append, List.append_assoc]
    rfl

/-- Below the path that it starts from, a path lies at the names that it was gone down by. -/
theorem descend_below? (p : Path) {names : List String} (valid : ∀ name ∈ names, IsName name) :
    (descend p names).below? p = some (names.map .name) := by
  rw [Path.below?, descend_components p valid, if_pos (by simp), List.drop_left]

/-- A file has the name that its path ends with. -/
theorem fileName?_concat {p : Path} {cs : List Component} {name : String}
    (ends : p.components = cs ++ [.name name]) : p.fileName? = some name := by
  rw [Path.fileName?, ends, List.getLast?_concat]

theorem child_fileName? (dir : Path) {name : String} (valid : IsName name) :
    (dir.child name).fileName? = some name :=
  fileName?_concat (child_components dir valid)

theorem child_extension? (dir : Path) {name : String} (valid : IsName name) :
    (dir.child name).extension? = (Path.mk name).extension? := by
  have alone : (Path.mk name).components = [] ++ [.name name] := name_components valid
  rw [Path.extension?, Path.extension?, child_fileName? dir valid, fileName?_concat alone]

theorem child_walkSteps {p : Path} {name : String} (filled : p.text.toList ≠ [])
    (valid : IsSegment name) :
    walkSteps (p.child name).text = p.segments.map (·.1) ++ [name] := by
  obtain ⟨front, text, -⟩ := child_text filled valid
  have last : (p.child name).text.toList.getLast? ≠ some '/' := by
    have named : name.toList ≠ [] := by simpa using valid.filled
    rw [text, List.getLast?_append, List.getLast?_cons, List.getLast?_eq_some_getLast named]
    intro same
    have ends : name.toList.getLast named = '/' := by simpa using same
    exact valid.single (ends ▸ List.getLast_mem named)
  rw [walkSteps, if_neg last]
  exact child_segments filled valid

/-- Going down adds the names to the steps of a path. -/
theorem descend_steps {p : Path} {names : List String} (filled : p.text.toList ≠ [])
    (valid : ∀ name ∈ names, IsName name) :
    (descend p names).text.toList ≠ [] ∧
      (descend p names).segments.map (·.1) = p.segments.map (·.1) ++ names ∧
      (descend p names).isAbsolute = p.isAbsolute ∧
      (names ≠ [] → walkSteps (descend p names).text = p.segments.map (·.1) ++ names) := by
  induction names using List.reverseRecOn with
  | nil => exact ⟨filled, by simp [descend], rfl, fun none => absurd rfl none⟩
  | append_singleton names name ih =>
    obtain ⟨above, segments, absolute, -⟩ := ih fun n member =>
      valid n (List.mem_append_left _ member)
    have last := (valid name (List.mem_append_right _ (List.mem_singleton_self _))).toIsSegment
    rw [descend_concat]
    refine ⟨?_, ?_, (child_isAbsolute above last).trans absolute, fun _ => ?_⟩
    · obtain ⟨front, text, -⟩ := child_text above last
      simp [text]
    · rw [child_segments above last, segments, List.append_assoc]
    · rw [child_walkSteps above last, segments, List.append_assoc]

/-! ## Walks -/

section Walks

variable {disk : Disk} {how : Resolution} {more final : List String}

/-- How a walk goes on behind a link. -/
abbrev Following :=
  String → List String → List String → Except StorageError (List String)

/-- A step of a walk that arrives leads every walk on in the same way, or it comes to a link. -/
theorem walkAlong_step {follow : Following} (exact : how.mayMiss = false) {step : String}
    {here steps location : List String}
    (arrived : disk.walkAlong how follow here (step :: steps) = .ok location) :
    (∃ on, ∀ (how' : Resolution) (follow' : Following) (steps' : List String),
      disk.walkAlong how' follow' here (step :: steps') = disk.walkAlong how' follow' on steps') ∨
    ∃ target, disk.node? (here ++ [step]) = some (.link target) ∧
      ∀ (how' : Resolution) (follow' : Following) (steps' : List String),
        disk.walkAlong how' follow' here (step :: steps') =
          if steps'.isEmpty && !how'.followLast then .ok (here ++ [step])
          else follow' target here steps' := by
  rw [walkAlong] at arrived
  cases node : disk.node? here with
  | none => simp [node, exact] at arrived
  | some inner =>
    cases inner with
    | directory entries =>
      simp only [node] at arrived
      by_cases current : step = "."
      · exact Or.inl ⟨here, fun how' follow' steps' => by simp [walkAlong, node, current]⟩
      by_cases parent : step = ".."
      · exact Or.inl ⟨here.dropLast, fun how' follow' steps' => by simp [walkAlong, node, parent]⟩
      rw [if_neg current, if_neg parent] at arrived
      split at arrived
      · cases arrived
      rename_i short
      cases found : findEntry step entries with
      | none => simp [found, exact] at arrived
      | some next =>
        cases next with
        | link target =>
          refine Or.inr ⟨target, (node?_child node step).trans found, fun how' follow' steps' => ?_⟩
          rw [walkAlong]
          simp only [node, current, parent, short, found, ↓reduceIte]
        | _ =>
          refine Or.inl ⟨here ++ [step], fun how' follow' steps' => ?_⟩
          rw [walkAlong]
          simp only [node, current, parent, short, found, ↓reduceIte]
    | _ => simp [node] at arrived

/-- At the end of a walk, a dot asks for a directory and leads nowhere else. -/
theorem walkAlong_end {follow : Following} (exact : how.mayMiss = false)
    (ending : final = [] ∨ final = ["."]) {here location : List String}
    (arrived : disk.walkAlong how follow here final = .ok location) : location = here := by
  have stay (arrived : disk.walkAlong how follow here [] = .ok location) : location = here := by
    rw [walkAlong] at arrived
    split at arrived <;> cases arrived
    rfl
  rcases ending with rfl | rfl
  · exact stay arrived
  · rw [walkAlong] at arrived
    cases node : disk.node? here with
    | none => simp [node, exact] at arrived
    | some inner =>
      cases inner with
      | directory entries => exact stay (by simpa [node] using arrived)
      | _ => simp [node] at arrived

/-- A walk that arrives can be gone on with from there, perhaps through fewer links. How links are
handed over is the matter of the walk and not of this step. -/
theorem walkAlong_on {follow follow' : Following} (further : more ≠ [])
    (ending : final = [] ∨ final = ["."])
    (stays : ∀ location, ∃ links, disk.walkAlong how follow' location more =
      disk.walk how links location more)
    (links : ∀ target here rest location, follow target here (rest ++ final) = .ok location →
      ∃ links, follow' target here (rest ++ more) = disk.walk how links location more)
    {here steps location : List String}
    (arrived : disk.walkAlong {} follow here (steps ++ final) = .ok location) :
    ∃ links, disk.walkAlong how follow' here (steps ++ more) = disk.walk how links location more := by
  induction steps generalizing here with
  | nil =>
    exact walkAlong_end mayMiss_default ending arrived ▸ stays location
  | cons step steps ih =>
    rw [List.cons_append] at arrived ⊢
    rcases walkAlong_step mayMiss_default arrived with ⟨on, leads⟩ | ⟨target, -, leads⟩
    · rw [leads] at arrived ⊢
      exact ih arrived
    · have behind : (steps ++ more).isEmpty = false :=
        List.isEmpty_eq_false_iff.mpr (List.append_ne_nil_of_right_ne_nil steps further)
      rw [leads, behind, Bool.false_and, if_neg Bool.false_ne_true]
      rw [leads, Bool.not_true, Bool.and_false, if_neg Bool.false_ne_true] at arrived
      exact links target here steps location arrived

/-- A walk that arrives can be gone on with from there. -/
theorem walk_on (how : Resolution) (further : more ≠ []) (ending : final = [] ∨ final = ["."])
    {links : Nat} {here steps location : List String}
    (arrived : disk.walk {} links here (steps ++ final) = .ok location) :
    ∃ links', disk.walk how links here (steps ++ more) = disk.walk how links' location more := by
  induction links generalizing here steps location with
  | zero =>
    exact walkAlong_on further ending (fun location => ⟨0, rfl⟩)
      (fun target here rest location refused => by cases refused) arrived
  | succ links ih =>
    refine walkAlong_on further ending (fun location => ⟨links + 1, rfl⟩)
      (fun target here rest location followed => ?_) arrived
    split at followed
    · cases followed
    · rename_i filled
      rw [← List.append_assoc] at followed
      rw [if_neg filled, ← List.append_assoc]
      exact ih followed

/-- Where a walk arrives, the one that leaves a last link alone arrives too, if not at that link. -/
theorem walkAlong_unfollowed {follow follow' : Following}
    (links : ∀ target here rest location, rest ≠ [] → follow target here rest = .ok location →
      ∃ last, follow' target here rest = .ok last ∧
        (last = location ∨ ∃ target, disk.node? last = some (.link target)))
    {here steps location : List String}
    (arrived : disk.walkAlong {} follow here steps = .ok location) :
    ∃ last, disk.walkAlong { followLast := false } follow' here steps = .ok last ∧
      (last = location ∨ ∃ target, disk.node? last = some (.link target)) := by
  induction steps generalizing here with
  | nil => exact ⟨location, arrived, Or.inl rfl⟩
  | cons step steps ih =>
    rcases walkAlong_step mayMiss_default arrived with ⟨on, leads⟩ | ⟨target, link, leads⟩
    · rw [leads] at arrived ⊢
      exact ih arrived
    · rw [leads, Bool.not_true, Bool.and_false, if_neg Bool.false_ne_true] at arrived
      rw [leads, Bool.not_false, Bool.and_true]
      split
      · exact ⟨_, rfl, Or.inr ⟨target, link⟩⟩
      · rename_i filled
        exact links target here steps location (by simpa using filled) arrived

theorem walk_unfollowed {links : Nat} {here steps location : List String}
    (arrived : disk.walk {} links here steps = .ok location) :
    ∃ last, disk.walk { followLast := false } links here steps = .ok last ∧
      (last = location ∨ ∃ target, disk.node? last = some (.link target)) := by
  induction links generalizing here steps location with
  | zero =>
    exact walkAlong_unfollowed (fun target here rest location _ refused => by cases refused) arrived
  | succ links ih =>
    refine walkAlong_unfollowed (fun target here rest location _ followed => ?_) arrived
    split at followed
    · cases followed
    · rename_i filled
      rw [if_neg filled]
      exact ih followed

/-- Names of real directories are gone through one by one, unless one of them is too long. -/
theorem walkAlong_real {follow : Following} {here names : List String} {node : Node} {inner : Entries}
    (valid : ∀ name ∈ names, IsName name) (stands : disk.node? here = some node)
    (real : node.at? names = some (.directory inner)) :
    disk.walkAlong how follow here names = .ok (here ++ names) ∨
      disk.walkAlong how follow here names = .error .nameTooLong := by
  induction names generalizing here node with
  | nil => exact Or.inl (by simp [walkAlong, stands])
  | cons name names ih =>
    obtain ⟨-, noCurrent, noParent⟩ := valid name (List.mem_cons_self ..)
    cases node with
    | directory entries =>
      obtain ⟨next, found, further⟩ := Option.bind_eq_some_iff.mp real
      have later := ih (fun n member => valid n (List.mem_cons_of_mem _ member))
        ((node?_child stands name).trans found) further
      rw [List.append_assoc, List.singleton_append] at later
      rw [walkAlong]
      simp only [stands, noCurrent, noParent, found, ↓reduceIte]
      split
      · exact Or.inr rfl
      cases next with
      | link target =>
        cases names with
        | nil => cases further
        | cons second rest => cases further
      | _ => exact later
    | _ => cases real

end Walks

/-! ## Paths -/

section Paths

variable {disk : Disk} {how : Resolution} {p : Path} {names : List String}

theorem walkSteps_segments (p : Path) : ∃ final, (final = [] ∨ final = ["."]) ∧
    walkSteps p.text = p.segments.map (·.1) ++ final := by
  unfold walkSteps
  split
  · exact ⟨["."], Or.inr rfl, rfl⟩
  · exact ⟨[], Or.inl rfl, (List.append_nil _).symm⟩

/-- A path that leads somewhere is spelled and walked. -/
theorem resolve_walks {location : List String} (leads : disk.resolve how p = .ok location) :
    p.text.toList ≠ [] ∧
      disk.walk how maxLinks (if p.isAbsolute then [] else disk.workingDir) (walkSteps p.text) =
        .ok location := by
  unfold Disk.resolve at leads
  split at leads
  · cases leads
  split at leads
  · cases leads
  rename_i filled
  split at leads
  · cases leads
  exact ⟨by simpa using filled, leads⟩

/-- Real directories are reached by their names. They are never missing, even where the system refuses
to look for them. -/
theorem resolve_real {entries inner : Entries} {location : List String}
    (leads : disk.resolve {} p = .ok location)
    (stands : disk.node? location = some (.directory entries)) (valid : ∀ name ∈ names, IsName name)
    (real : (Node.directory entries).at? names = some (.directory inner)) :
    disk.resolve {} (descend p names) = .ok (location ++ names) ∨
      ∃ cause, disk.resolve {} (descend p names) = .error cause ∧ cause ≠ .notFound := by
  by_cases none : names = []
  · subst none
    rw [List.append_nil]
    exact Or.inl leads
  obtain ⟨filled, walked⟩ := resolve_walks leads
  obtain ⟨filled', -, absolute, steps⟩ := descend_steps filled valid
  obtain ⟨final, ending, own⟩ := walkSteps_segments p
  rw [own] at walked
  -- The walk of the longer path passes through where the shorter one leads.
  obtain ⟨links, on⟩ := walk_on {} none ending walked
  obtain ⟨follow, along⟩ := exists_follow disk {} links
  rw [Disk.resolve, absolute, steps none, on, along]
  split
  · exact Or.inr ⟨_, rfl, by decide⟩
  · rw [if_neg (by simpa using filled')]
    split
    · exact Or.inr ⟨_, rfl, by decide⟩
    · exact (walkAlong_real valid stands real).imp id fun refused => ⟨_, refused, by decide⟩

theorem resolve_descend {entries inner : Entries} {location location' : List String}
    (leads : disk.resolve {} p = .ok location)
    (stands : disk.node? location = some (.directory entries)) (valid : ∀ name ∈ names, IsName name)
    (real : (Node.directory entries).at? names = some (.directory inner))
    (leads' : disk.resolve {} (descend p names) = .ok location') : location' = location ++ names := by
  rcases resolve_real leads stands valid real with arrives | ⟨cause, refused, -⟩
  · exact Except.ok.inj (leads'.symm.trans arrives)
  · cases leads'.symm.trans refused

theorem node?_append {entries inner : Entries} {location : List String}
    (stands : disk.node? location = some (.directory entries))
    (real : (Node.directory entries).at? names = some (.directory inner)) :
    disk.node? (location ++ names) = some (.directory inner) := by
  unfold node? at stands ⊢
  rw [at?_append, stands]
  exact real

/-- A directory that is found is found as one, or as a link, when a last link is left alone. -/
theorem stat_unfollowed {entries : Entries} (whole : disk.stat {} p = .ok (.directory entries)) :
    disk.stat { followLast := false } p = .ok (.directory entries) ∨
      ∃ target, disk.stat { followLast := false } p = .ok (.link target) := by
  obtain ⟨location, leads, stands⟩ := stat_eq_ok_iff.mp whole
  obtain ⟨last, walked, ends⟩ := walk_unfollowed (resolve_walks leads).2
  have leads' : disk.resolve { followLast := false } p = .ok last := by
    unfold Disk.resolve at leads ⊢
    split at leads
    · cases leads
    rename_i spelled
    rw [if_neg spelled]
    split at leads
    · cases leads
    rename_i filled
    rw [if_neg filled]
    split at leads
    · cases leads
    rename_i short
    rw [if_neg short]
    exact walked
  rcases ends with rfl | ⟨target, link⟩
  · exact Or.inl (stat_eq_ok_iff.mpr ⟨last, leads', stands⟩)
  · exact Or.inr ⟨target, stat_eq_ok_iff.mpr ⟨last, leads', link⟩⟩

end Paths

/-! ## Directories -/

/-- No directory that names lead through refuses to be listed. The last one may. -/
def Passed (refuses : List String → Bool) (here : List String) : List String → Prop
  | [] => True
  | name :: rest => refuses here = false ∧ Passed refuses (here ++ [name]) rest

theorem passed_iff {refuses : List String → Bool} {here names : List String} :
    Passed refuses here names ↔
      ∀ front, front <+: names → front ≠ names → refuses (here ++ front) = false := by
  induction names generalizing here with
  | nil => simp [Passed]
  | cons name names ih =>
    rw [Passed, ih]
    constructor
    · rintro ⟨first, later⟩ front before apart
      cases front with
      | nil => rwa [List.append_nil]
      | cons other front =>
        obtain ⟨rfl, rest⟩ := List.cons_prefix_cons.mp before
        rw [← List.singleton_append, ← List.append_assoc]
        exact later front rest fun same => apart (same ▸ rfl)
    · intro all
      refine ⟨by simpa using all [] List.nil_prefix (by simp), fun front before apart => ?_⟩
      have further := all (name :: front) (List.cons_prefix_cons.mpr ⟨rfl, before⟩)
        (by simpa using apart)
      rwa [← List.singleton_append, ← List.append_assoc] at further

section Walked

variable {refuses : List String → Bool}

theorem subset_directoriesIn (refuses : List String → Bool) {entries : Entries} {e : String × Node}
    (listed : e ∈ entries) (here : List String) (p : Path) :
    Node.directoriesOf refuses here p e ⊆ Node.directoriesIn refuses here p entries := by
  induction entries with
  | nil => cases listed
  | cons head rest ih =>
    rw [Node.directoriesIn]
    rcases List.mem_cons.mp listed with rfl | later
    · exact List.subset_append_left _ _
    · exact List.Subset.trans (ih later) (List.subset_append_right _ _)

/-- The walk of a directory comes through every real directory below it, and goes on there, if it can
list all that lead there. -/
theorem directoriesIn_descend {entries inner : Entries} {here : List String} {p : Path}
    {name : String} {names : List String}
    (real : (Node.directory entries).at? (name :: names) = some (.directory inner))
    (passed : Passed refuses (here ++ [name]) names) :
    Node.directoriesFrom refuses (here ++ name :: names) (descend p (name :: names))
      (.directory inner) ⊆ Node.directoriesIn refuses here p entries := by
  induction names generalizing entries here p name with
  | nil =>
    obtain ⟨next, found, same⟩ := Option.bind_eq_some_iff.mp real
    cases same
    obtain ⟨k, listed, same⟩ := mem_of_findEntry found
    obtain rfl := Std.LawfulEqCmp.eq_of_compare same
    have inside := subset_directoriesIn refuses listed here p
    rwa [Node.directoriesOf] at inside
  | cons second names ih =>
    obtain ⟨next, found, further⟩ := Option.bind_eq_some_iff.mp real
    obtain ⟨k, listed, same⟩ := mem_of_findEntry found
    obtain rfl := Std.LawfulEqCmp.eq_of_compare same
    cases next with
    | directory entries' =>
      have inside := subset_directoriesIn refuses listed here p
      have below := ih (p := p.child name) further passed.2
      rw [Node.directoriesOf, Node.directoriesFrom, passed.1, if_neg Bool.false_ne_true] at inside
      rw [List.append_assoc, List.singleton_append] at below
      exact List.Subset.trans below (List.Subset.trans (List.subset_cons_self _ _) inside)
    | _ => cases further

end Walked

variable {disk : Disk} {p : Path} {names : List String}

/-- The directory at a path has a directory of its own below it at the given names. -/
def Descends (disk : Disk) (p : Path) (names : List String) : Prop :=
  (∀ name ∈ names, IsName name) ∧ ∃ entries inner, disk.stat {} p = .ok (.directory entries) ∧
    (Node.directory entries).at? names = some (.directory inner)

/-- Every directory that names behind a path lead through can be listed. The last one need not. -/
def Passable (disk : Disk) (p : Path) (names : List String) : Prop :=
  ∀ front, front <+: names → front ≠ names → (disk.listing (descend p front)).isOk = true

instance (disk : Disk) (p : Path) (names : List String) : Decidable (Passable disk p names) :=
  decidable_of_iff (∀ front ∈ names.inits, front ≠ names →
    (disk.listing (descend p front)).isOk = true) (forall_congr' fun _ => by rw [List.mem_inits])

theorem listing_isOk {disk : Disk} {p : Path} : (disk.listing p).isOk = true ↔
    ∃ location entries, disk.opened p = .ok (location, entries) := by
  unfold Disk.listing
  cases disk.opened p with
  | error cause => simp [bind, Except.bind, Except.isOk, Except.toBool]
  | ok found => exact ⟨fun _ => ⟨found.1, found.2, rfl⟩, fun _ => rfl⟩

/-- Directories that can be listed do not refuse it. -/
theorem passed_of_passable {location : List String} {entries inner : Entries}
    (leads : disk.resolve {} p = .ok location)
    (stands : disk.node? location = some (.directory entries)) (valid : ∀ name ∈ names, IsName name)
    (real : (Node.directory entries).at? names = some (.directory inner))
    (passable : Passable disk p names) : Passed disk.refuses location names := by
  refine passed_iff.mpr fun front before apart => ?_
  obtain ⟨place, found, opens⟩ := listing_isOk.mp (passable front before apart)
  obtain ⟨leads', -, open'⟩ := opened_eq_ok_iff.mp opens
  obtain ⟨rest, rfl⟩ := before
  obtain ⟨node, above, below⟩ := Option.bind_eq_some_iff.mp (at?_append _ _ _ ▸ real)
  obtain ⟨inner', rfl⟩ : ∃ inner', node = .directory inner' := by
    cases node with
    | directory inner' => exact ⟨inner', rfl⟩
    | _ =>
      cases rest with
      | nil => exact absurd (List.append_nil _).symm apart
      | cons name rest => cases below
  have first : ∀ name ∈ front, IsName name := fun name member =>
    valid name (List.mem_append_left _ member)
  obtain rfl := resolve_descend leads stands first above leads'
  exact open'

/-- What is walked of a directory is its path and what is below. -/
theorem directoriesFrom_below {location : List String} {entries : Entries}
    (leads : disk.resolve {} p = .ok location)
    (stands : disk.node? location = some (.directory entries)) :
    Node.directoriesFrom disk.refuses location p (.directory entries) =
      p :: disk.directoriesBelow p := by
  rw [Node.directoriesFrom, directoriesBelow]
  cases refused : disk.refuses location with
  | false =>
    rw [opened_eq_ok_iff.mpr ⟨leads, stands, refused⟩]
    rfl
  | true =>
    have closed : disk.opened p = .error .permissionDenied := by
      rw [Disk.opened, leads]
      simp only [bind, Except.bind, stands, refused, if_true]
    rw [closed]
    rfl

/-- What is walked from a real directory below a path is walked from the path, if every directory that
leads there can be listed. -/
theorem directories_descend (descends : Descends disk p names) (passable : Passable disk p names) :
    disk.directories (descend p names) ⊆ disk.directories p := by
  by_cases none : names = []
  · subst none
    exact List.Subset.refl _
  obtain ⟨valid, entries, inner, whole, real⟩ := descends
  obtain ⟨location, leads, stands⟩ := stat_eq_ok_iff.mp whole
  have passed := passed_of_passable leads stands valid real passable
  have outer : disk.directoriesBelow p ⊆ disk.directories p := by
    unfold directories
    rcases stat_unfollowed whole with directory | ⟨target, link⟩
    · rw [directory]
      exact List.subset_cons_self _ _
    · rw [link]
      exact List.Subset.refl _
  cases names with
  | nil => exact absurd rfl none
  | cons name names =>
    have below : disk.directoriesBelow p = Node.directoriesIn disk.refuses location p entries := by
      rw [directoriesBelow, opened_eq_ok_iff.mpr ⟨leads, stands, passed.1⟩]
    have inside := directoriesIn_descend (p := p) real passed.2
    have part : disk.directories (descend p (name :: names)) ⊆
        descend p (name :: names) :: disk.directoriesBelow (descend p (name :: names)) := by
      unfold directories
      split
      · exact List.Subset.refl _
      · exact List.subset_cons_self _ _
      · exact List.nil_subset _
    have behind : descend p (name :: names) :: disk.directoriesBelow (descend p (name :: names)) ⊆
        Node.directoriesFrom disk.refuses (location ++ name :: names) (descend p (name :: names))
          (.directory inner) := by
      rw [Node.directoriesFrom]
      refine List.cons_subset_cons _ ?_
      unfold directoriesBelow
      split
      · rename_i place found opens
        obtain ⟨leads', there, open'⟩ := opened_eq_ok_iff.mp opens
        obtain rfl := resolve_descend leads stands valid real leads'
        cases (node?_append stands real).symm.trans there
        rw [open', if_neg Bool.false_ne_true]
        exact List.Subset.refl _
      · exact List.nil_subset _
    exact List.Subset.trans part (List.Subset.trans behind (List.Subset.trans inside (below ▸ outer)))

end PackageLoader.Subdirectories
