/-!
Tables: finite maps listed by strictly ascending key. Keys are told apart by their order alone, so
two spellings of one key share an entry, and the spelling that came first is the one that stays.
-/
namespace PackageLoader

variable {κ : Type u} {ν : Type v} [Ord κ]

/-- The first entry has a smaller key than the second. -/
abbrev KeyBefore (a b : κ × ν) : Prop :=
  compare a.1 b.1 = .lt

/-- Changes what a list of entries in ascending order holds for a key. A present entry keeps its
spelling of the key. -/
def alterEntry (key : κ) (change : Option ν → Option ν) : List (κ × ν) → List (κ × ν)
  | [] => ((change none).map (key, ·)).toList
  | (k, v) :: rest =>
    match compare key k with
    | .lt => ((change none).map (key, ·)).toList ++ (k, v) :: rest
    | .eq => ((change (some v)).map (k, ·)).toList ++ rest
    | .gt => (k, v) :: alterEntry key change rest

/-- The value that a list of entries holds for a key. -/
def findEntry (key : κ) : List (κ × ν) → Option ν
  | [] => none
  | (k, v) :: rest => if compare key k = .eq then some v else findEntry key rest

theorem before_of_mem_alterEntry [Std.TransOrd κ] {key bound : κ}
    {change : Option ν → Option ν} {entries : List (κ × ν)}
    (below : ∀ e ∈ entries, compare bound e.1 = .lt) (first : compare bound key = .lt) :
    ∀ e ∈ alterEntry key change entries, compare bound e.1 = .lt := by
  induction entries with
  | nil =>
    intro e mem
    cases found : change none <;> simp_all [alterEntry]
  | cons head rest ih =>
    obtain ⟨k, v⟩ := head
    intro e mem
    simp only [alterEntry] at mem
    have belowRest : ∀ e ∈ rest, compare bound e.1 = .lt :=
      fun e mem => below e (List.mem_cons_of_mem _ mem)
    split at mem
    · rcases List.mem_append.mp mem with new | old
      · cases found : change none <;> simp_all
      · exact below e old
    · rcases List.mem_append.mp mem with new | old
      · cases found : change (some v) with
        | none => simp [found] at new
        | some w =>
          simp only [found, Option.map_some, Option.toList_some, List.mem_singleton] at new
          rw [new]
          exact below (k, v) (List.mem_cons_self ..)
      · exact belowRest e old
    · rcases List.mem_cons.mp mem with same | later
      · rw [same]
        exact below (k, v) (List.mem_cons_self ..)
      · exact ih belowRest e later

/-- Changing an entry keeps the order. -/
theorem pairwise_alterEntry [Std.TransOrd κ] {key : κ} {change : Option ν → Option ν}
    {entries : List (κ × ν)} (ascending : entries.Pairwise KeyBefore) :
    (alterEntry key change entries).Pairwise KeyBefore := by
  induction entries with
  | nil => cases found : change none <;> simp [alterEntry, found]
  | cons head rest ih =>
    obtain ⟨k, v⟩ := head
    obtain ⟨above, restAscending⟩ := List.pairwise_cons.mp ascending
    simp only [alterEntry]
    split
    · rename_i less
      cases found : change none with
      | none => simpa using ascending
      | some w =>
        refine List.pairwise_cons.mpr ⟨?_, ascending⟩
        intro e mem
        rcases List.mem_cons.mp mem with same | later
        · rw [same]
          exact less
        · exact Std.TransCmp.lt_trans less (above e later)
    · cases found : change (some v) with
      | none => simpa using restAscending
      | some w => exact List.pairwise_cons.mpr ⟨fun e mem => above e mem, restAscending⟩
    · rename_i greater
      refine List.pairwise_cons.mpr ⟨?_, ih restAscending⟩
      exact before_of_mem_alterEntry above (Std.OrientedCmp.gt_iff_lt.mp greater)

/-- A finite map listed by ascending key. -/
structure Table (κ : Type u) (ν : Type v) [Ord κ] where
  entries : List (κ × ν)
  ascending : entries.Pairwise KeyBefore

namespace Table

/-- The table without entries. -/
def empty : Table κ ν := ⟨[], .nil⟩

instance : Inhabited (Table κ ν) := ⟨empty⟩

/-- Two tables are equal when they list the same entries. -/
theorem ext_entries {a b : Table κ ν} (same : a.entries = b.entries) : a = b := by
  cases a
  cases b
  cases same
  rfl

instance [DecidableEq κ] [DecidableEq ν] : DecidableEq (Table κ ν) := fun a b =>
  if same : a.entries = b.entries then isTrue (ext_entries same)
  else isFalse fun equal => same (equal ▸ rfl)

/-- The keys in ascending order. -/
def keys (t : Table κ ν) : List κ :=
  t.entries.map (·.1)

/-- The value of a key. -/
def get? (t : Table κ ν) (key : κ) : Option ν :=
  findEntry key t.entries

/-- Whether a key has a value. -/
def contains (t : Table κ ν) (key : κ) : Bool :=
  (t.get? key).isSome

/-- Gives a key a value. A key that is present keeps its spelling. -/
def insert [Std.TransOrd κ] (t : Table κ ν) (key : κ) (value : ν) : Table κ ν :=
  ⟨alterEntry key (fun _ => some value) t.entries, pairwise_alterEntry t.ascending⟩

/-- Inserts the entries one after the other, so the last value of a key stays. -/
def insertAll [Std.TransOrd κ] (t : Table κ ν) (new : List (κ × ν)) : Table κ ν :=
  new.foldl (fun t entry => t.insert entry.1 entry.2) t

/-- The table of a list of entries. -/
def ofList [Std.TransOrd κ] (entries : List (κ × ν)) : Table κ ν :=
  empty.insertAll entries

/-- Revises or drops each entry by its key. -/
def revise (t : Table κ ν) (change : κ → ν → Option μ) : Table κ μ :=
  ⟨t.entries.filterMap fun entry => (change entry.1 entry.2).map (entry.1, ·), by
    refine List.pairwise_filterMap.mpr (t.ascending.imp ?_)
    intro a b before x hx y hy
    obtain ⟨v, _, rfl⟩ := Option.map_eq_some_iff.mp hx
    obtain ⟨w, _, rfl⟩ := Option.map_eq_some_iff.mp hy
    exact before⟩

end Table

end PackageLoader
