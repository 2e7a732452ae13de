import Mathlib.Data.List.Sort
import PackageLoader.Proofs.TableLaws

/-! What a table of a list of entries lists: every key as it was spelled first, with its last value. So
the table is the same for every order of the list in which the entries of each key keep their order. -/
namespace PackageLoader.TableListing
open Std TableLaws

variable {κ : Type u} {ν : Type v} [Ord κ] [TransOrd κ]

/-! ## Entries and keys -/

/-- An entry is a listed key with its value. -/
theorem mem_entries_iff {t : Table κ ν} {key : κ} {value : ν} :
    (key, value) ∈ t.entries ↔ key ∈ t.keys ∧ t.get? key = some value := by
  obtain ⟨entries, ascending⟩ := t
  simp only [Table.keys, Table.get?]
  induction entries with
  | nil => simp
  | cons head rest ih =>
    obtain ⟨above, restAscending⟩ := List.pairwise_cons.mp ascending
    have tail := ih restAscending
    by_cases same : compare key head.1 = .eq
    · have absent : key ∉ rest.map (·.1) := fun member => by
        obtain ⟨value, found⟩ := exists_findEntry member ReflOrd.compare_self
        rw [findEntry_rest ascending same] at found
        cases found
      have later : (key, value) ∉ rest := fun member => absent (List.mem_map_of_mem member)
      simp [findEntry, same, absent, later, Prod.ext_iff, eq_comm]
    · have other : key ≠ head.1 := fun equal => same (equal ▸ ReflOrd.compare_self)
      simp [findEntry, same, other, tail, Prod.ext_iff]

/-- A table is known by the keys that it lists and by their values. -/
theorem ext_get? {a b : Table κ ν} (keys : ∀ key, key ∈ a.keys ↔ key ∈ b.keys)
    (values : ∀ key, a.get? key = b.get? key) : a = b := by
  have : Std.Irrefl (KeyBefore (κ := κ) (ν := ν)) := ⟨fun e before => by
    rw [KeyBefore, ReflOrd.compare_self] at before
    cases before⟩
  have : Std.Antisymm (KeyBefore (κ := κ) (ν := ν)) := ⟨fun e f before after => by
    rw [KeyBefore, OrientedCmp.gt_iff_lt.mpr before] at after
    cases after⟩
  apply Table.ext_entries
  apply List.Pairwise.eq_of_mem_iff a.ascending b.ascending
  rintro ⟨key, value⟩
  rw [mem_entries_iff, mem_entries_iff, keys, values]

/-- A new key is listed as it is spelled, unless it is there already. -/
theorem mem_keys_insert {t : Table κ ν} {key probe : κ} {value : ν} :
    probe ∈ (t.insert key value).keys ↔ probe ∈ t.keys ∨ probe = key ∧ t.get? key = none := by
  obtain ⟨entries, ascending⟩ := t
  show probe ∈ (alterEntry key (fun _ => some value) entries).map (·.1) ↔
    probe ∈ entries.map (·.1) ∨ probe = key ∧ findEntry key entries = none
  induction entries with
  | nil => simp [alterEntry, findEntry]
  | cons head rest ih =>
    obtain ⟨k, v⟩ := head
    obtain ⟨above, restAscending⟩ := List.pairwise_cons.mp ascending
    rw [alterEntry]
    split
    · rename_i less
      have absent : findEntry key ((k, v) :: rest) = none := findEntry_less ascending less
      simp [absent, or_comm]
    · rename_i equal
      simp [findEntry, equal]
    · rename_i greater
      simp [findEntry, greater, ih restAscending, or_assoc]

/-! ## Tables of lists -/

/-- The entries of a list for one key. -/
def entriesFor (key : κ) (entries : List (κ × ν)) : List (κ × ν) :=
  entries.filter fun e => compare key e.1 = .eq

omit [TransOrd κ] in
theorem entriesFor_concat (key : κ) (entries : List (κ × ν)) (last : κ × ν) :
    entriesFor key (entries ++ [last]) =
      entriesFor key entries ++ if compare key last.1 = .eq then [last] else [] := by
  by_cases same : compare key last.1 = .eq <;> simp [entriesFor, same]

theorem ofList_concat (entries : List (κ × ν)) (last : κ × ν) :
    Table.ofList (entries ++ [last]) = (Table.ofList entries).insert last.1 last.2 := by
  simp [Table.ofList, Table.insertAll]

/-- A key has its last value. -/
theorem get?_ofList_last (entries : List (κ × ν)) (key : κ) :
    (Table.ofList entries).get? key = (entriesFor key entries).getLast?.map (·.2) :=
  get?_ofList entries key

/-- A key is listed as it was spelled first. -/
theorem mem_keys_ofList_first {entries : List (κ × ν)} {key : κ} :
    key ∈ (Table.ofList entries).keys ↔ (entriesFor key entries).head?.map (·.1) = some key := by
  induction entries using List.reverseRecOn with
  | nil => simp [Table.ofList, Table.insertAll, Table.keys, Table.empty, entriesFor]
  | append_singleton entries last ih =>
    have fresh : (Table.ofList entries).get? last.1 = none ↔ entriesFor last.1 entries = [] := by
      rw [get?_ofList_last, Option.map_eq_none_iff, List.getLast?_eq_none_iff]
    rw [ofList_concat, mem_keys_insert, ih, fresh, entriesFor_concat]
    cases front : entriesFor key entries with
    | nil =>
      by_cases same : compare key last.1 = .eq
      · simp only [same, ↓reduceIte, List.nil_append, List.head?_nil, Option.map_none, reduceCtorEq,
          false_or, List.head?_cons, Option.map_some, Option.some.injEq]
        constructor
        · rintro ⟨rfl, -⟩
          rfl
        · rintro rfl
          exact ⟨rfl, front⟩
      · have other : key ≠ last.1 := fun equal => same (equal ▸ ReflOrd.compare_self)
        simp [same, other]
    | cons first rest =>
      have kept : ¬ (key = last.1 ∧ entriesFor last.1 entries = []) := by
        rintro ⟨rfl, none⟩
        rw [front] at none
        cases none
      simp [kept]

theorem insertAll_concat (t : Table κ ν) (entries : List (κ × ν)) (last : κ × ν) :
    t.insertAll (entries ++ [last]) = (t.insertAll entries).insert last.1 last.2 := by
  simp [Table.insertAll]

/-- What is inserted into a table comes before what the table holds. -/
theorem get?_insertAll (t : Table κ ν) (entries : List (κ × ν)) (key : κ) :
    (t.insertAll entries).get? key = ((Table.ofList entries).get? key).or (t.get? key) := by
  induction entries using List.reverseRecOn with
  | nil => rfl
  | append_singleton entries last ih =>
    rw [insertAll_concat, ofList_concat, get?_insert, get?_insert, ih]
    split <;> rfl

/-- A key that the table holds keeps its spelling, and the others are listed as they are inserted. -/
theorem mem_keys_insertAll {t : Table κ ν} {entries : List (κ × ν)} {key : κ} :
    key ∈ (t.insertAll entries).keys ↔
      key ∈ t.keys ∨ key ∈ (Table.ofList entries).keys ∧ t.get? key = none := by
  induction entries using List.reverseRecOn with
  | nil => simp [Table.insertAll, Table.ofList, Table.keys, Table.empty]
  | append_singleton entries last ih =>
    rw [insertAll_concat, ofList_concat, mem_keys_insert, mem_keys_insert, ih, get?_insertAll,
      Option.or_eq_none_iff]
    constructor
    · rintro ((held | ⟨listed, free⟩) | ⟨rfl, new, free⟩)
      · exact Or.inl held
      · exact Or.inr ⟨Or.inl listed, free⟩
      · exact Or.inr ⟨Or.inr ⟨rfl, new⟩, free⟩
    · rintro (held | ⟨listed | ⟨rfl, new⟩, free⟩)
      · exact Or.inl (Or.inl held)
      · exact Or.inl (Or.inr ⟨listed, free⟩)
      · exact Or.inr ⟨rfl, new, free⟩

/-- The order of the list plays no role but among the entries of each key. -/
theorem ofList_congr {a b : List (κ × ν)} (alike : ∀ key, entriesFor key a = entriesFor key b) :
    Table.ofList a = Table.ofList b := by
  apply ext_get?
  · intro key
    rw [mem_keys_ofList_first, mem_keys_ofList_first, alike]
  · intro key
    rw [get?_ofList_last, get?_ofList_last, alike]

/-- A table has at most one entry for a key. -/
theorem entriesFor_length_le (t : Table κ ν) (key : κ) : (entriesFor key t.entries).length ≤ 1 := by
  have ascending : (entriesFor key t.entries).Pairwise KeyBefore := t.ascending.filter _
  have alike : ∀ e ∈ entriesFor key t.entries, compare key e.1 = .eq := fun e member =>
    of_decide_eq_true (List.mem_filter.mp member).2
  generalize entriesFor key t.entries = own at ascending alike ⊢
  match own with
  | [] => exact Nat.zero_le _
  | [e] => exact Nat.le_refl _
  | e :: f :: rest =>
    have before : compare e.1 f.1 = .lt := List.rel_of_pairwise_cons ascending (List.mem_cons_self ..)
    have same : compare e.1 f.1 = .eq := TransCmp.eq_trans
      (OrientedCmp.eq_symm (alike e (by simp))) (alike f (by simp))
    rw [same] at before
    cases before

omit [TransOrd κ] in
/-- A key behind all others goes to the end. -/
theorem alterEntry_behind [OrientedOrd κ] {key : κ} {value : ν} {entries : List (κ × ν)}
    (behind : ∀ e ∈ entries, compare e.1 key = .lt) :
    alterEntry key (fun _ => some value) entries = entries ++ [(key, value)] := by
  induction entries with
  | nil => rfl
  | cons head rest ih =>
    have greater : compare key head.1 = .gt :=
      OrientedCmp.gt_iff_lt.mpr (behind head (List.mem_cons_self ..))
    simp only [alterEntry, greater, List.cons_append]
    rw [ih fun e member => behind e (List.mem_cons_of_mem _ member)]

/-- A table is made of its entries. -/
theorem ofList_entries (t : Table κ ν) : Table.ofList t.entries = t := by
  obtain ⟨entries, ascending⟩ := t
  apply Table.ext_entries
  show (Table.ofList entries).entries = entries
  induction entries using List.reverseRecOn with
  | nil => rfl
  | append_singleton entries last ih =>
    obtain ⟨front, -, before⟩ := List.pairwise_append.mp ascending
    have behind : ∀ e ∈ entries, compare e.1 last.1 = .lt :=
      fun e member => before e member last (List.mem_singleton_self _)
    rw [ofList_concat]
    show alterEntry last.1 _ (Table.ofList entries).entries = _
    rw [ih front, alterEntry_behind behind]

/-- A table is made of its entries in whatever order. -/
theorem ofList_perm {t : Table κ ν} {entries : List (κ × ν)} (perm : entries.Perm t.entries) :
    Table.ofList entries = t := by
  have alike (key : κ) : entriesFor key entries = entriesFor key t.entries := by
    have reordered : (entriesFor key entries).Perm (entriesFor key t.entries) := perm.filter _
    have few := entriesFor_length_le t key
    generalize entriesFor key t.entries = own at reordered few ⊢
    match own with
    | [] => exact reordered.eq_nil
    | [e] => exact reordered.eq_singleton
    | e :: f :: rest => exact absurd few (by simp)
  rw [ofList_congr alike, ofList_entries]

end PackageLoader.TableListing
