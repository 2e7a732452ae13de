import PackageLoader.Proofs.PathSpellings
import PackageLoader.Proofs.TwoPaths

/-! Resolving paths on any disk, links included. An absolute path that leads somewhere leads there in
normal form as well, since leaving out dots takes nothing from a walk. What has a path below it that
leads somewhere is a directory. -/
namespace PackageLoader.NormalResolution
open Disk LinkFreeDisk PathNormalForm PathSpellings Subdirectories TwoPaths

/-! ## Leaving out dots -/

/-- Some of the dots in a list of steps are left out. -/
inductive Undotted : List String → List String → Prop
  | done : Undotted [] []
  | kept {steps steps' : List String} (step : String) (later : Undotted steps steps') :
    Undotted (step :: steps) (step :: steps')
  | dropped {steps steps' : List String} (later : Undotted steps steps') :
    Undotted ("." :: steps) steps'

theorem undotted_append {steps steps' : List String} (front : List String)
    (undotted : Undotted steps steps') : Undotted (front ++ steps) (front ++ steps') := by
  induction front with
  | nil => exact undotted
  | cons step front ih => exact .kept step ih

/-- All dots are left out. -/
theorem undotted_filter (steps : List String) : Undotted steps (steps.filter (· ≠ ".")) := by
  induction steps with
  | nil => exact .done
  | cons step steps ih =>
    rw [List.filter_cons]
    by_cases current : step = "."
    · subst current
      exact .dropped ih
    · rw [if_pos (by simpa using current)]
      exact .kept step ih

section Walks

variable {disk : Disk}

/-- A walk that arrives arrives without some of its dots, if this is so behind the links that it
meets. -/
theorem walkAlong_undotted {follow follow' : Following}
    (links : ∀ target here rest rest' location, Undotted rest rest' →
      follow target here rest = .ok location → follow' target here rest' = .ok location)
    {here steps steps' location : List String} (undotted : Undotted steps steps')
    (arrived : disk.walkAlong {} follow here steps = .ok location) :
    disk.walkAlong {} follow' here steps' = .ok location := by
  induction undotted generalizing here with
  | done => exact arrived
  | kept step later ih =>
    rcases walkAlong_step mayMiss_default arrived with ⟨on, leads⟩ | ⟨target, -, leads⟩
    · rw [leads] at arrived ⊢
      exact ih arrived
    · rw [leads, Bool.not_true, Bool.and_false, if_neg Bool.false_ne_true] at arrived ⊢
      exact links target here _ _ location later arrived
  | dropped later ih =>
    rw [walkAlong] at arrived
    cases node : disk.node? here with
    | none => simp [node] at arrived
    | some inner =>
      cases inner with
      | directory entries => exact ih (by simpa [node] using arrived)
      | _ => simp [node] at arrived

theorem walk_undotted {links : Nat} {here steps steps' location : List String}
    (undotted : Undotted steps steps') (arrived : disk.walk {} links here steps = .ok location) :
    disk.walk {} links here steps' = .ok location := by
  induction links generalizing here steps steps' location with
  | zero =>
    exact walkAlong_undotted (fun _ _ _ _ _ _ refused => by cases refused) undotted arrived
  | succ links ih =>
    refine walkAlong_undotted (fun target here rest rest' location later followed => ?_) undotted
      arrived
    split at followed
    · cases followed
    · rename_i filled
      rw [if_neg filled]
      exact ih (undotted_append _ later) followed

/-- The root is a directory. -/
theorem walk_root (disk : Disk) (links : Nat) : disk.walk {} links [] ["."] = .ok [] := by
  obtain ⟨follow, along⟩ := exists_follow disk {} links
  have here : disk.node? [] = some (.directory disk.root) := by simp [node?, Node.at?]
  simp [along, walkAlong, here]

end Walks

/-! ## Normal form -/

/-- A path without a zero in it that is not too long is walked. -/
theorem resolve_walk {disk : Disk} {p : Path} (filled : p.text.toList ≠ [])
    (plain : '\x00' ∉ p.text.toList) (short : Short p) : disk.resolve {} p =
      disk.walk {} maxLinks (if p.isAbsolute then [] else disk.workingDir) (walkSteps p.text) := by
  unfold Disk.resolve
  rw [if_neg fun zero => plain (List.contains_iff_mem.mp zero), if_neg (by simpa using filled),
    if_neg (Nat.not_le.mpr short)]

/-- An absolute path that leads somewhere leads there in normal form. -/
theorem resolve_normal {disk : Disk} {p : Path} (absolute : p.isAbsolute = true)
    {location : List String} (leads : disk.resolve {} p = .ok location) :
    disk.resolve {} (.ofComponents p.components) = .ok location := by
  obtain ⟨-, plain, short⟩ := resolve_spelled leads
  obtain ⟨-, walks⟩ := resolve_walks leads
  obtain ⟨final, ending, steps⟩ := walkSteps_segments p
  have fewer := normal_sublist absolute
  have shorter : Short (.ofComponents p.components) := by
    have sizes := String.utf8Len_le_of_sublist fewer
    rw [String.utf8Len_toList, String.utf8Len_toList] at sizes
    exact Nat.lt_of_le_of_lt sizes short
  have rooted : (Path.ofComponents p.components).isAbsolute = true := by
    obtain ⟨cs, inner, components⟩ := absolute_components absolute
    rw [components]
    exact ofComponents_isAbsolute inner
  have arrives : disk.walk {} maxLinks [] (walked p) = .ok location := by
    have all := undotted_filter (p.segments.map (·.1) ++ final)
    have dots : final.filter (· ≠ ".") = [] := by
      rcases ending with rfl | rfl
      · rfl
      · decide
    rw [List.filter_append, dots, List.append_nil] at all
    rw [absolute, if_pos rfl, steps] at walks
    exact walk_undotted all walks
  rw [resolve_walk (filled_of_isAbsolute rooted) (fun zero => plain (fewer.subset zero)) shorter,
    rooted, if_pos rfl, normal_walkSteps absolute]
  split
  · rename_i alone
    obtain ⟨follow, along⟩ := exists_follow disk {} maxLinks
    rw [alone, along] at arrives
    rw [walkAlong_end mayMiss_default (Or.inl rfl) arrives]
    exact walk_root disk maxLinks
  · exact arrives

/-! ## Above a path -/

section Above

variable {disk : Disk} {name : String}

/-- A walk whose last step arrives comes to a directory before it, and stays there for a dot. -/
structure Before (disk : Disk) (walk : List String → Except StorageError (List String))
    (place : List String) (entries : Entries) : Prop where
  stands : disk.node? place = some (.directory entries)
  arrives : walk [] = .ok place
  stays : walk ["."] = .ok place

theorem walkAlong_before {follow : Following}
    (links : ∀ target here rest location, follow target here (rest ++ [name]) = .ok location →
      ∃ place entries, Before disk (fun final => follow target here (rest ++ final)) place entries)
    {here steps location : List String}
    (arrived : disk.walkAlong {} follow here (steps ++ [name]) = .ok location) :
    ∃ place entries,
      Before disk (fun final => disk.walkAlong {} follow here (steps ++ final)) place entries := by
  induction steps generalizing here with
  | nil =>
    rw [List.nil_append, walkAlong] at arrived
    cases node : disk.node? here with
    | none => simp [node] at arrived
    | some inner =>
      cases inner with
      | directory entries =>
        exact ⟨here, entries, node, by simp [walkAlong, node], by simp [walkAlong, node]⟩
      | _ => simp [node] at arrived
  | cons step steps ih =>
    rw [List.cons_append] at arrived
    rcases walkAlong_step mayMiss_default arrived with ⟨on, leads⟩ | ⟨target, -, leads⟩
    · rw [leads] at arrived
      obtain ⟨place, entries, before⟩ := ih arrived
      refine ⟨place, entries, before.stands, ?_, ?_⟩
      · exact (leads _ _ _).trans before.arrives
      · exact (leads _ _ _).trans before.stays
    · rw [leads, Bool.not_true, Bool.and_false, if_neg Bool.false_ne_true] at arrived
      obtain ⟨place, entries, before⟩ := links target here steps location arrived
      refine ⟨place, entries, before.stands, ?_, ?_⟩
      · exact (leads _ _ _).trans ((if_neg (by simp)).trans before.arrives)
      · exact (leads _ _ _).trans ((if_neg (by simp)).trans before.stays)

theorem walk_before {links : Nat} {here steps location : List String}
    (arrived : disk.walk {} links here (steps ++ [name]) = .ok location) :
    ∃ place entries,
      Before disk (fun final => disk.walk {} links here (steps ++ final)) place entries := by
  induction links generalizing here steps location with
  | zero => exact walkAlong_before (fun _ _ _ _ refused => by cases refused) arrived
  | succ links ih =>
    refine walkAlong_before (fun target here rest location followed => ?_) arrived
    split at followed
    · cases followed
    · rename_i filled
      rw [← List.append_assoc] at followed
      obtain ⟨place, entries, before⟩ := ih followed
      refine ⟨place, entries, before.stands, ?_, ?_⟩
      · simpa only [if_neg filled, List.append_assoc] using before.arrives
      · simpa only [if_neg filled, List.append_assoc] using before.stays

/-- Above a path that leads somewhere there is a directory. -/
theorem stat_above_child {p : Path} (filled : p.text.toList ≠ []) (valid : IsName name) {node : Node}
    (found : disk.stat {} (p.child name) = .ok node) :
    ∃ entries, disk.stat {} p = .ok (.directory entries) := by
  obtain ⟨location, leads, -⟩ := stat_eq_ok_iff.mp found
  obtain ⟨-, plain, short⟩ := resolve_spelled leads
  obtain ⟨-, walks⟩ := resolve_walks leads
  have only : ∀ n ∈ [name], IsName n := fun n member => List.mem_singleton.mp member ▸ valid
  have noZero : '\x00' ∉ p.text.toList := fun zero =>
    plain ((mem_descend_text filled only (by decide)).mpr (Or.inl zero))
  have shorter := child_short filled valid.toIsSegment short
  rw [child_walkSteps filled valid.toIsSegment, child_isAbsolute filled valid.toIsSegment] at walks
  obtain ⟨place, entries, before⟩ := walk_before walks
  obtain ⟨final, ending, steps⟩ := walkSteps_segments p
  refine ⟨entries, stat_eq_ok_iff.mpr ⟨place, ?_, before.stands⟩⟩
  rw [resolve_walk filled noZero shorter, steps]
  rcases ending with rfl | rfl
  · exact before.arrives
  · exact before.stays

end Above

end PackageLoader.NormalResolution
