import Mathlib.Data.List.Forall2
import Mathlib.Data.String.Basic
import PackageLoader.Proofs.Subdirectories

/-! Two paths of one place. On a disk without links, what stands below a place is found by every path
that leads there, unless the names behind the path make it too long. Two paths of one place that get
too long for the same things therefore find the same things, in the same order. -/
namespace PackageLoader.TwoPaths
open Disk LinkFreeDisk PathNormalForm Subdirectories

/-! ## One path -/

/-- Paths stay below this length. -/
def Short (p : Path) : Prop :=
  p.text.utf8ByteSize < maxPathLength

instance (p : Path) : Decidable (Short p) :=
  inferInstanceAs (Decidable (_ < _))

section OnePath

variable {disk : Disk} {p : Path} {place below : List String}

/-- Names behind a path bring in their own characters and separators. -/
theorem mem_descend_text (filled : p.text.toList ≠ []) (valid : ∀ name ∈ below, IsName name)
    {c : Char} (other : c ≠ '/') : c ∈ (descend p below).text.toList ↔
      c ∈ p.text.toList ∨ ∃ name ∈ below, c ∈ name.toList := by
  induction below using List.reverseRecOn with
  | nil => simp [descend]
  | append_singleton below name ih =>
    have before : ∀ n ∈ below, IsName n := fun n member => valid n (List.mem_append_left _ member)
    have last := valid name (List.mem_append_right _ (List.mem_singleton_self _))
    obtain ⟨front, text, above⟩ := child_text (descend_steps filled before).1 last.toIsSegment
    have same : c ∈ front ↔ c ∈ (descend p below).text.toList := by
      rcases above with same | same <;> simp [same, other]
    rw [descend_concat, text, List.mem_append, List.mem_cons, same, ih before]
    simp only [other, false_or, List.mem_append, List.mem_singleton, or_and_right, exists_or,
      exists_eq_left, or_assoc]

/-- A name makes a path longer. -/
theorem child_short {name : String} (filled : p.text.toList ≠ []) (valid : IsSegment name)
    (short : Short (p.child name)) : Short p := by
  obtain ⟨front, text, before⟩ := child_text filled valid
  unfold Short at short ⊢
  rw [← String.utf8Len_toList, text, String.utf8Len_append, String.utf8Len_cons] at short
  rw [← String.utf8Len_toList]
  have separator : '/'.utf8Size = 1 := by decide
  rcases before with same | same
  · rw [same]
    omega
  · rw [same, String.utf8Len_append, String.utf8Len_cons, String.utf8Len_nil]
    omega

/-- A path that leads somewhere is spelled, has no zero in it and is short enough. -/
theorem resolve_spelled (leads : disk.resolve {} p = .ok place) :
    p.text.toList ≠ [] ∧ '\x00' ∉ p.text.toList ∧ Short p := by
  unfold Disk.resolve at leads
  split at leads
  · cases leads
  rename_i spelling
  split at leads
  · cases leads
  rename_i filled
  split at leads
  · cases leads
  rename_i short
  exact ⟨by simpa using filled, by simpa using spelling, Nat.not_le.mp short⟩

/-- A path with names behind it is walked from where the path leads, perhaps through fewer links. -/
theorem resolve_behind (leads : disk.resolve {} p = .ok place) (valid : ∀ name ∈ below, IsName name)
    (further : below ≠ []) : ∃ links, disk.resolve {} (descend p below) =
      if ∃ name ∈ below, '\x00' ∈ name.toList then .error .nulInName
      else if Short (descend p below) then disk.walk {} links place below
      else .error .nameTooLong := by
  obtain ⟨filled, spelling, -⟩ := resolve_spelled leads
  obtain ⟨-, walked⟩ := resolve_walks leads
  obtain ⟨filled', -, absolute, steps⟩ := descend_steps filled valid
  obtain ⟨final, ending, own⟩ := walkSteps_segments p
  rw [own] at walked
  obtain ⟨links, on⟩ := walk_on {} further ending walked
  refine ⟨links, ?_⟩
  have zero : (descend p below).text.toList.contains '\x00' = true ↔
      ∃ name ∈ below, '\x00' ∈ name.toList := by
    rw [List.contains_iff_mem, mem_descend_text filled valid (by decide)]
    simp [spelling]
  have long : (descend p below).text.utf8ByteSize ≥ maxPathLength ↔ ¬ Short (descend p below) :=
    Nat.not_lt.symm
  have spelled : (descend p below).text.isEmpty ≠ true := by simpa using filled'
  unfold Disk.resolve
  simp only [zero, spelled, long, Bool.false_eq_true, ↓reduceIte, ite_not]
  rw [absolute, steps further, on]

/-- The same with the way in which links are followed left open. -/
theorem resolve_from (leads : disk.resolve {} p = .ok place) (valid : ∀ name ∈ below, IsName name)
    (further : below ≠ []) : ∃ follow, disk.resolve {} (descend p below) =
      if ∃ name ∈ below, '\x00' ∈ name.toList then .error .nulInName
      else if Short (descend p below) then disk.walkAlong {} follow place below
      else .error .nameTooLong := by
  obtain ⟨links, walks⟩ := resolve_behind leads valid further
  obtain ⟨follow, along⟩ := exists_follow disk {} links
  exact ⟨follow, by rw [walks, along]⟩

theorem resolve_below (linkFree : LinkFree disk) (leads : disk.resolve {} p = .ok place)
    (valid : ∀ name ∈ below, IsName name) (stands : (disk.node? (place ++ below)).isSome) :
    disk.resolve {} (descend p below) =
      if ∃ name ∈ below, '\x00' ∈ name.toList then .error .nulInName
      else if Short (descend p below) then
        if ∃ name ∈ below, name.utf8ByteSize > maxNameLength then .error .nameTooLong
        else .ok (place ++ below)
      else .error .nameTooLong := by
  by_cases further : below = []
  · subst further
    have here : descend p [] = p := rfl
    simpa [here, (resolve_spelled leads).2.2] using leads
  · obtain ⟨follow, walks⟩ := resolve_from leads valid further
    have along : disk.walkAlong {} follow place (below ++ []) = _ :=
      walkAlong_names linkFree valid (kind?_isSome disk _ ▸ stands) []
    rw [List.append_nil] at along
    have here : disk.walkAlong {} follow (place ++ below) [] = .ok (place ++ below) := by
      rw [walkAlong, if_pos (by simp [stands])]
    rw [walks, along, here]

/-- What is found below a path stands below its place. -/
theorem stands_of_stat (linkFree : LinkFree disk) (leads : disk.resolve {} p = .ok place)
    (valid : ∀ name ∈ below, IsName name) {node : Node}
    (found : disk.stat {} (descend p below) = .ok node) :
    disk.node? (place ++ below) = some node := by
  obtain ⟨location, arrived, stands⟩ := stat_eq_ok_iff.mp found
  by_cases further : below = []
  · subst further
    have here : place = location := Except.ok.inj (leads.symm.trans arrived)
    rw [List.append_nil, here, stands]
  · obtain ⟨follow, walks⟩ := resolve_from leads valid further
    rw [walks] at arrived
    split at arrived
    · cases arrived
    split at arrived
    · rw [← List.append_nil below] at arrived
      obtain ⟨rfl, -⟩ := walkAlong_arrives linkFree mayMiss_default valid (Or.inl rfl) arrived
      exact stands
    · cases arrived

/-- A path below which something is found leads to a directory. -/
theorem resolve_above (linkFree : LinkFree disk) (leads : disk.resolve {} p = .ok place) {name : String}
    (valid : ∀ n ∈ below ++ [name], IsName n) {node : Node}
    (found : disk.stat {} (descend p (below ++ [name])) = .ok node) :
    ∃ entries, disk.resolve {} (descend p below) = .ok (place ++ below) ∧
      disk.node? (place ++ below) = some (.directory entries) := by
  have there := stands_of_stat linkFree leads valid found
  have present : (disk.node? (place ++ (below ++ [name]))).isSome := by simp [there]
  rw [← List.append_assoc, ← kind?_isSome] at present
  obtain ⟨entries, stands⟩ := kind?_directory.mp (kind?_above present (List.cons_ne_nil _ _))
  have before : ∀ n ∈ below, IsName n := fun n member => valid n (List.mem_append_left _ member)
  have last := valid name (List.mem_append_right _ (List.mem_singleton_self _))
  refine ⟨entries, ?_, stands⟩
  -- Whatever is wrong with the shorter path is wrong with the longer one.
  obtain ⟨location, arrived, -⟩ := stat_eq_ok_iff.mp found
  rw [resolve_below linkFree leads valid (by simp [there])] at arrived
  rw [resolve_below linkFree leads before (by simp [stands])]
  have earlier {P : String → Prop} (fails : ∃ n ∈ below, P n) : ∃ n ∈ below ++ [name], P n := by
    obtain ⟨n, member, holds⟩ := fails
    exact ⟨n, List.mem_append_left _ member, holds⟩
  split at arrived
  · cases arrived
  rename_i noZero
  split at arrived
  · rename_i short
    split at arrived
    · cases arrived
    rename_i narrow
    rw [descend_concat] at short
    have filled := (descend_steps (resolve_spelled leads).1 before).1
    rw [if_neg fun zero => noZero (earlier zero), if_pos (child_short filled last.toIsSegment short),
      if_neg fun wide => narrow (earlier wide)]
  · cases arrived

/-- The directories at and below a path that leads to one. -/
theorem directories_eq_directoriesFrom (linkFree : LinkFree disk) {entries : Entries}
    (leads : disk.resolve {} p = .ok place) (stands : disk.node? place = some (.directory entries)) :
    disk.directories p = Node.directoriesFrom disk.refuses place p (.directory entries) := by
  have whole := stat_eq_ok_iff.mpr ⟨place, leads, stands⟩
  have real : disk.stat { followLast := false } p = .ok (.directory entries) := by
    rcases stat_unfollowed whole with real | ⟨target, link⟩
    · exact real
    · obtain ⟨location, -, there⟩ := stat_eq_ok_iff.mp link
      exact absurd there (not_link linkFree)
  rw [directoriesFrom_below leads stands, Disk.directories, real]

end OnePath

/-! ## Steps upwards -/

/-- A walk without steps upwards goes down by its names. -/
theorem walkAlong_downward {disk : Disk} (linkFree : LinkFree disk)
    {follow : String → List String → List String → Except StorageError (List String)}
    {here steps location : List String} (segments : ∀ step ∈ steps, IsSegment step)
    (downward : ".." ∉ steps) (arrived : disk.walkAlong {} follow here steps = .ok location) :
    location.map Component.name = here.map .name ++ steps.filterMap meaning? := by
  induction steps generalizing here with
  | nil =>
    rw [walkAlong_end mayMiss_default (Or.inl rfl) arrived]
    simp
  | cons step steps ih =>
    have later {here : List String} (arrived : disk.walkAlong {} follow here steps = .ok location) :=
      ih (fun s member => segments s (List.mem_cons_of_mem _ member))
        (fun member => downward (List.mem_cons_of_mem _ member)) arrived
    have home : kind? disk here = some .directory := by
      cases node : disk.node? here with
      | none => simp [walkAlong, node] at arrived
      | some inner =>
        cases inner with
        | directory entries => exact kind?_directory.mpr ⟨entries, node⟩
        | _ => simp [walkAlong, node] at arrived
    by_cases current : step = "."
    · obtain ⟨entries, node⟩ := kind?_directory.mp home
      subst current
      rw [walkAlong] at arrived
      simp only [node, ↓reduceIte] at arrived
      exact later arrived
    · have noParent : step ≠ ".." := fun same => downward (same ▸ List.mem_cons_self ..)
      rw [walkAlong_name linkFree current noParent home] at arrived
      split at arrived
      · cases arrived
      split at arrived
      · have means := meaning?_name ⟨segments step (List.mem_cons_self ..), current, noParent⟩
        rw [later arrived, List.filterMap_cons_some means]
        simp
      · cases arrived

/-- An absolute path without steps upwards spells the place that it leads to. -/
theorem components_of_downward {disk : Disk} (linkFree : LinkFree disk) {p : Path}
    {place : List String} (absolute : p.isAbsolute = true) (downward : .parent ∉ p.components)
    (leads : disk.resolve {} p = .ok place) : p.components = .root :: place.map .name := by
  have segments : ∀ s ∈ p.segments.map (·.1), IsSegment s := by
    intro s member
    obtain ⟨segment, read, rfl⟩ := List.mem_map.mp member
    exact isSegment_of_mem List.not_mem_nil read
  obtain ⟨-, walked⟩ := resolve_walks leads
  obtain ⟨follow, along⟩ := exists_follow disk {} maxLinks
  obtain ⟨final, ending, own⟩ := walkSteps_segments p
  rw [components_eq, if_pos absolute] at downward ⊢
  rw [along, absolute, if_pos rfl, own] at walked
  have all : ∀ step ∈ p.segments.map (·.1) ++ final, IsSegment step := by
    intro step member
    rcases List.mem_append.mp member with early | late
    · exact segments step early
    · rcases ending with rfl | rfl
      · cases late
      · rw [List.mem_singleton.mp late]
        exact ⟨by decide, by decide⟩
  have none : ".." ∉ p.segments.map (·.1) ++ final := by
    intro member
    rcases List.mem_append.mp member with early | late
    · exact downward (List.mem_cons_of_mem _ (List.mem_filterMap.mpr ⟨"..", early, by decide⟩))
    · rcases ending with rfl | rfl
      · cases late
      · exact absurd late (by decide)
  have names := walkAlong_downward linkFree all none walked
  have nothing : final.filterMap meaning? = [] := by
    rcases ending with rfl | rfl
    · rfl
    · decide
  rw [names, List.filterMap_append, nothing, List.append_nil]
  rfl

/-! ## Two paths -/

/-- Both paths lead to the place, and what stands below it has a path that is short enough behind both
or behind none of them. -/
structure Meet (disk : Disk) (place : List String) (p p' : Path) : Prop where
  first : disk.resolve {} p = .ok place
  second : disk.resolve {} p' = .ok place
  short : ∀ below, (disk.node? (place ++ below)).isSome →
    (Short (descend p below) ↔ Short (descend p' below))

instance (disk : Disk) (place : List String) (p p' : Path) : Decidable (Meet disk place p p') :=
  decidable_of_iff (disk.resolve {} p = .ok place ∧ disk.resolve {} p' = .ok place ∧
      ∀ below ∈ (disk.node? place).elim [] locationsAt, (disk.node? (place ++ below)).isSome →
        (Short (descend p below) ↔ Short (descend p' below)))
    ⟨fun ⟨first, second, short⟩ => ⟨first, second, fun below stands =>
        short below (mem_locationsBelow stands) stands⟩,
      fun meet => ⟨meet.first, meet.second, fun below _ => meet.short below⟩⟩

/-- The directories lie at the same names below the two paths, and something stands there. -/
def Across (disk : Disk) (place : List String) (p p' d d' : Path) : Prop :=
  ∃ below, (∀ name ∈ below, IsName name) ∧ (disk.node? (place ++ below)).isSome ∧
    d = descend p below ∧ d' = descend p' below

section TwoPaths

variable {disk : Disk} {p p' : Path} {place below : List String}

theorem names_of_stands (linkFree : LinkFree disk) (stands : (disk.node? (place ++ below)).isSome) :
    ∀ name ∈ below, IsName name := by
  rw [← kind?_isSome] at stands
  obtain ⟨kind, found⟩ := Option.isSome_iff_exists.mp stands
  exact fun name member => (linkFree _ _ found).1 name (List.mem_append_right _ member)

/-- Both paths lead alike to what stands below the place. -/
theorem resolve_alike (linkFree : LinkFree disk) (meet : Meet disk place p p')
    (stands : (disk.node? (place ++ below)).isSome) :
    disk.resolve {} (descend p below) = disk.resolve {} (descend p' below) := by
  have valid := names_of_stands linkFree stands
  rw [resolve_below linkFree meet.first valid stands,
    resolve_below linkFree meet.second valid stands]
  simp only [meet.short below stands]

theorem stat_alike (linkFree : LinkFree disk) (meet : Meet disk place p p')
    (stands : (disk.node? (place ++ below)).isSome) :
    disk.stat {} (descend p below) = disk.stat {} (descend p' below) := by
  unfold Disk.stat
  rw [resolve_alike linkFree meet stands]

/-- Both paths find the same, whether it stands there or not. -/
theorem found_alike (linkFree : LinkFree disk) (meet : Meet disk place p p')
    (valid : ∀ name ∈ below, IsName name) :
    (∃ node, disk.stat {} (descend p below) = .ok node ∧
      disk.stat {} (descend p' below) = .ok node) ∨
    ∃ cause cause', disk.stat {} (descend p below) = .error cause ∧
      disk.stat {} (descend p' below) = .error cause' := by
  by_cases stands : (disk.node? (place ++ below)).isSome
  · rw [stat_alike linkFree meet stands]
    cases disk.stat {} (descend p' below) with
    | ok node => exact Or.inl ⟨node, rfl, rfl⟩
    | error cause => exact Or.inr ⟨cause, cause, rfl, rfl⟩
  · have lost {q : Path} (leads : disk.resolve {} q = .ok place) :
        ∃ cause, disk.stat {} (descend q below) = .error cause := by
      cases found : disk.stat {} (descend q below) with
      | error cause => exact ⟨cause, rfl⟩
      | ok node => simp [stands_of_stat linkFree leads valid found] at stands
    obtain ⟨cause, first⟩ := lost meet.first
    obtain ⟨cause', second⟩ := lost meet.second
    exact Or.inr ⟨cause, cause', first, second⟩

theorem isFile_alike (linkFree : LinkFree disk) (meet : Meet disk place p p')
    (valid : ∀ name ∈ below, IsName name) :
    disk.isFile (descend p below) = disk.isFile (descend p' below) := by
  unfold Disk.isFile
  rcases found_alike linkFree meet valid with ⟨node, first, second⟩ | ⟨cause, cause', first, second⟩
  · rw [first, second]
  · rw [first, second]

theorem isDir_alike (linkFree : LinkFree disk) (meet : Meet disk place p p')
    (valid : ∀ name ∈ below, IsName name) :
    disk.isDir (descend p below) = disk.isDir (descend p' below) := by
  unfold Disk.isDir
  rcases found_alike linkFree meet valid with ⟨node, first, second⟩ | ⟨cause, cause', first, second⟩
  · rw [first, second]
  · rw [first, second]

theorem contents_alike (linkFree : LinkFree disk) (meet : Meet disk place p p')
    (stands : (disk.node? (place ++ below)).isSome) :
    disk.contents (descend p below) = disk.contents (descend p' below) := by
  rw [contents_eq, contents_eq, resolve_alike linkFree meet stands]

mutual

theorem directoriesFrom_across (linkFree : LinkFree disk) :
    (node : Node) → {below : List String} → disk.node? (place ++ below) = some node →
      List.Forall₂ (Across disk place p p')
        (Node.directoriesFrom disk.refuses (place ++ below) (descend p below) node)
        (Node.directoriesFrom disk.refuses (place ++ below) (descend p' below) node)
  | .directory entries, below, stands => by
    have present : (disk.node? (place ++ below)).isSome := by simp [stands]
    rw [Node.directoriesFrom, Node.directoriesFrom]
    refine .cons ⟨below, names_of_stands linkFree present, present, rfl, rfl⟩ ?_
    split
    · exact .nil
    refine directoriesIn_across linkFree entries fun e listed => ?_
    rw [← List.append_assoc]
    exact found_of_mem stands listed
  | .file bytes, below, stands => by
    rw [Node.directoriesFrom, Node.directoriesFrom]
    · exact .nil
    all_goals simp
  | .link target, below, stands => absurd stands (not_link linkFree)

theorem directoriesIn_across (linkFree : LinkFree disk) :
    (entries : List (String × Node)) → {below : List String} →
      (∀ e ∈ entries, disk.node? (place ++ (below ++ [e.1])) = some e.2) →
      List.Forall₂ (Across disk place p p')
        (Node.directoriesIn disk.refuses (place ++ below) (descend p below) entries)
        (Node.directoriesIn disk.refuses (place ++ below) (descend p' below) entries)
  | [], below, stand => .nil
  | e :: rest, below, stand => by
    rw [Node.directoriesIn, Node.directoriesIn]
    exact List.rel_append (directoriesOf_across linkFree e (stand e (List.mem_cons_self ..)))
      (directoriesIn_across linkFree rest fun e member => stand e (List.mem_cons_of_mem _ member))

theorem directoriesOf_across (linkFree : LinkFree disk) :
    (e : String × Node) → {below : List String} →
      disk.node? (place ++ (below ++ [e.1])) = some e.2 →
      List.Forall₂ (Across disk place p p')
        (Node.directoriesOf disk.refuses (place ++ below) (descend p below) e)
        (Node.directoriesOf disk.refuses (place ++ below) (descend p' below) e)
  | (name, node), below, stands => by
    rw [Node.directoriesOf, Node.directoriesOf, ← descend_concat, ← descend_concat,
      List.append_assoc]
    exact directoriesFrom_across linkFree node stands

end

/-- The walks from both paths come through the same directories in the same order. -/
theorem directories_across (linkFree : LinkFree disk) (meet : Meet disk place p p')
    {entries : Entries} (stands : disk.node? place = some (.directory entries)) :
    List.Forall₂ (Across disk place p p') (disk.directories p) (disk.directories p') := by
  have here : disk.node? (place ++ []) = some (.directory entries) := by
    rwa [List.append_nil]
  have across : List.Forall₂ (Across disk place p p')
      (Node.directoriesFrom disk.refuses (place ++ []) (descend p []) (.directory entries))
      (Node.directoriesFrom disk.refuses (place ++ []) (descend p' []) (.directory entries)) :=
    directoriesFrom_across linkFree (.directory entries) here
  rw [List.append_nil] at across
  rw [directories_eq_directoriesFrom linkFree meet.first stands,
    directories_eq_directoriesFrom linkFree meet.second stands]
  exact across

end TwoPaths

end PackageLoader.TwoPaths
