import Mathlib.Data.List.Induction
import PackageLoader.Table

/-! A table is the function that its look-up computes, and each operation is one equation about that
function. The keys that a table lists are those at which the function is defined. -/
namespace PackageLoader.TableLaws
open Std

variable {κ : Type u} {ν : Type v} {μ : Type w} [Ord κ]

/-! ## Entries -/

/-- A key before all others has no value. -/
theorem findEntry_before {key : κ} {entries : List (κ × ν)}
    (below : ∀ e ∈ entries, compare key e.1 = .lt) : findEntry key entries = none := by
  induction entries with
  | nil => rfl
  | cons head rest ih =>
    have first := below head (List.mem_cons_self ..)
    simp only [findEntry, first, reduceCtorEq, ↓reduceIte]
    exact ih fun e member => below e (List.mem_cons_of_mem _ member)

/-- A key before the first one has no value. -/
theorem findEntry_less [TransOrd κ] {key : κ} {head : κ × ν} {rest : List (κ × ν)}
    (ascending : (head :: rest).Pairwise KeyBefore) (less : compare key head.1 = .lt) :
    findEntry key (head :: rest) = none := by
  obtain ⟨above, -⟩ := List.pairwise_cons.mp ascending
  apply findEntry_before
  intro e member
  rcases List.mem_cons.mp member with rfl | later
  · exact less
  · exact TransCmp.lt_trans less (above e later)

/-- The first key comes only once. -/
theorem findEntry_rest [TransOrd κ] {key : κ} {head : κ × ν} {rest : List (κ × ν)}
    (ascending : (head :: rest).Pairwise KeyBefore) (same : compare key head.1 = .eq) :
    findEntry key rest = none := by
  obtain ⟨above, -⟩ := List.pairwise_cons.mp ascending
  apply findEntry_before
  intro e member
  exact TransCmp.lt_of_eq_of_lt same (above e member)

/-- What is found is listed, under a key that compares equal. -/
theorem mem_of_findEntry {key : κ} {entries : List (κ × ν)} {value : ν}
    (found : findEntry key entries = some value) :
    ∃ k, (k, value) ∈ entries ∧ compare key k = .eq := by
  induction entries with
  | nil => cases found
  | cons head rest ih =>
    rw [findEntry] at found
    split at found
    · rename_i same
      cases found
      exact ⟨head.1, List.mem_cons_self .., same⟩
    · obtain ⟨k, member, same⟩ := ih found
      exact ⟨k, List.mem_cons_of_mem _ member, same⟩

theorem exists_findEntry {key k : κ} {entries : List (κ × ν)} (member : k ∈ entries.map (·.1))
    (same : compare key k = .eq) : ∃ value, findEntry key entries = some value := by
  induction entries with
  | nil => cases member
  | cons head rest ih =>
    rw [findEntry]
    split
    · exact ⟨head.2, rfl⟩
    · rename_i other
      rcases List.mem_cons.mp member with rfl | later
      · exact absurd same other
      · exact ih later

/-- Keys that compare equal have one value. -/
theorem findEntry_congr [TransOrd κ] {a b : κ} (same : compare a b = .eq) (entries : List (κ × ν)) :
    findEntry a entries = findEntry b entries := by
  induction entries with
  | nil => rfl
  | cons head rest ih => simp only [findEntry, TransCmp.congr_left same, ih]

/-- Changing an entry changes the value of its key and of no other. -/
theorem findEntry_alterEntry [TransOrd κ] {key : κ} {change : Option ν → Option ν}
    {entries : List (κ × ν)} (ascending : entries.Pairwise KeyBefore) (probe : κ) :
    findEntry probe (alterEntry key change entries) =
      if compare probe key = .eq then change (findEntry key entries)
      else findEntry probe entries := by
  induction entries with
  | nil =>
    by_cases same : compare probe key = .eq <;> cases made : change none <;>
      simp [alterEntry, findEntry, same, made]
  | cons head rest ih =>
    obtain ⟨k, v⟩ := head
    have restAscending := (List.pairwise_cons.mp ascending).2
    simp only [alterEntry]
    split
    · rename_i less
      have absent : findEntry key ((k, v) :: rest) = none := findEntry_less ascending less
      rw [absent]
      by_cases same : compare probe key = .eq
      · have gone := (findEntry_congr same ((k, v) :: rest)).trans absent
        cases made : change none with
        | none => simpa [same] using gone
        | some w => simp [findEntry, same]
      · cases made : change none <;> simp [findEntry, same]
    · rename_i equal
      have present : findEntry key ((k, v) :: rest) = some v := by simp [findEntry, equal]
      rw [present]
      have swap : (compare probe k = .eq) ↔ compare probe key = .eq := by
        rw [TransCmp.congr_right (OrientedCmp.eq_symm equal)]
      by_cases same : compare probe key = .eq
      · have absent : findEntry probe rest = none := findEntry_rest ascending (swap.mpr same)
        cases made : change (some v) <;> simp [findEntry, same, swap, absent]
      · cases made : change (some v) <;> simp [findEntry, same, swap]
    · rename_i greater
      have later : findEntry key ((k, v) :: rest) = findEntry key rest := by
        simp [findEntry, greater]
      rw [later]
      simp only [findEntry]
      rw [ih restAscending]
      by_cases same : compare probe key = .eq
      · have beyond : compare probe k = .gt := (TransCmp.congr_left same).trans greater
        simp [same, beyond]
      · simp only [same, ↓reduceIte]

/-! ## Tables -/

@[simp] theorem get?_empty (probe : κ) : (Table.empty : Table κ ν).get? probe = none := rfl

theorem keys_nodup [ReflOrd κ] (t : Table κ ν) : t.keys.Nodup := by
  apply List.pairwise_map.mpr
  apply t.ascending.imp
  intro a b before same
  rw [KeyBefore, same, ReflOrd.compare_self] at before
  cases before

/-- The last value that a key was given is the one that it has. -/
theorem get?_insert [TransOrd κ] (t : Table κ ν) (key : κ) (value : ν) (probe : κ) :
    (t.insert key value).get? probe = if compare probe key = .eq then some value else t.get? probe :=
  findEntry_alterEntry t.ascending probe

/-- A key has the last value that a list of entries gives it. -/
theorem get?_ofList [TransOrd κ] (entries : List (κ × ν)) (probe : κ) :
    (Table.ofList entries).get? probe =
      (entries.filter fun e => compare probe e.1 = .eq).getLast?.map (·.2) := by
  induction entries using List.reverseRecOn with
  | nil => rfl
  | append_singleton entries last ih =>
    have step : Table.ofList (entries ++ [last]) = (Table.ofList entries).insert last.1 last.2 := by
      simp [Table.ofList, Table.insertAll]
    rw [step, get?_insert, ih, List.filter_append, List.getLast?_append]
    by_cases same : compare probe last.1 = .eq <;> simp [same]

section Lawful

variable [LawfulEqOrd κ]

/-- A look-up finds exactly the entries of a table. -/
theorem get?_eq_some_iff {t : Table κ ν} {key : κ} {value : ν} :
    t.get? key = some value ↔ (key, value) ∈ t.entries := by
  obtain ⟨entries, ascending⟩ := t
  simp only [Table.get?]
  induction entries with
  | nil => simp [findEntry]
  | cons head rest ih =>
    obtain ⟨above, restAscending⟩ := List.pairwise_cons.mp ascending
    have tail := ih restAscending
    simp only [findEntry]
    by_cases same : key = head.1
    · subst same
      have absent : (head.1, value) ∉ rest := fun member => by
        have loop : compare head.1 head.1 = .lt := above (head.1, value) member
        rw [ReflOrd.compare_self] at loop
        cases loop
      simp [ReflOrd.compare_self, absent, Prod.ext_iff, eq_comm]
    · have differ : compare key head.1 ≠ .eq := fun equal => same (LawfulEqCmp.eq_of_compare equal)
      have other : (key, value) ≠ head := fun equal => same (by rw [← equal])
      simp [differ, tail, other]

/-- The keys are those that have a value. -/
theorem mem_keys_iff {t : Table κ ν} {key : κ} : key ∈ t.keys ↔ ∃ value, t.get? key = some value := by
  simp only [get?_eq_some_iff, Table.keys, List.mem_map]
  constructor
  · rintro ⟨e, member, rfl⟩
    exact ⟨e.2, member⟩
  · rintro ⟨value, member⟩
    exact ⟨_, member, rfl⟩

/-- The keys of a list of entries are the keys in it. -/
theorem mem_keys_ofList [TransOrd κ] {entries : List (κ × ν)} {key : κ} :
    key ∈ (Table.ofList entries).keys ↔ ∃ e ∈ entries, e.1 = key := by
  rw [mem_keys_iff, get?_ofList]
  constructor
  · rintro ⟨value, found⟩
    obtain ⟨e, last, -⟩ := Option.map_eq_some_iff.mp found
    obtain ⟨member, same⟩ := List.mem_filter.mp (List.mem_of_getLast? last)
    exact ⟨e, member, (LawfulEqCmp.eq_of_compare (of_decide_eq_true same)).symm⟩
  · rintro ⟨e, member, rfl⟩
    have kept : e ∈ entries.filter fun other => compare e.1 other.1 = .eq :=
      List.mem_filter.mpr ⟨member, decide_eq_true ReflOrd.compare_self⟩
    obtain ⟨last, found⟩ := Option.isSome_iff_exists.mp
      (List.getLast?_isSome.mpr (List.ne_nil_of_mem kept))
    exact ⟨last.2, by rw [found]; rfl⟩

/-- Revising a table revises each value by its key. -/
theorem get?_revise (t : Table κ ν) (change : κ → ν → Option μ) (probe : κ) :
    (t.revise change).get? probe = (t.get? probe).bind (change probe) := by
  apply Option.ext
  intro value
  rw [get?_eq_some_iff, Option.bind_eq_some_iff]
  simp only [Table.revise, List.mem_filterMap, Option.map_eq_some_iff, get?_eq_some_iff]
  constructor
  · rintro ⟨e, member, made, changed, equal⟩
    cases equal
    exact ⟨e.2, member, changed⟩
  · rintro ⟨old, member, changed⟩
    exact ⟨(probe, old), member, value, changed, rfl⟩

end Lawful

end PackageLoader.TableLaws
