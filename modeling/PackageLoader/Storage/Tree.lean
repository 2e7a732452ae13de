import PackageLoader.Path
import PackageLoader.Text.Utf8

/-!
Directory trees. A node is a file, a symbolic link or a directory, and the entries of a directory
are listed by strictly ascending name. Changing what stands at a location keeps that order.
-/
namespace PackageLoader

open Text

/-- What stands at a location. -/
inductive Node where
  | file (bytes : Bytes)
  | link (target : String)
  | directory (entries : List (String × Node))

/-- The named entries of a directory. -/
abbrev Entries := List (String × Node)

namespace Node

/-- Every directory lists its entries by strictly ascending name. -/
inductive Ordered : Node → Prop where
  | file (bytes : Bytes) : Ordered (.file bytes)
  | link (target : String) : Ordered (.link target)
  | directory {entries : Entries} (ascending : entries.Pairwise KeyBefore)
      (inner : ∀ e ∈ entries, Ordered e.2) : Ordered (.directory entries)

/-- The entries of a directory; files and links have none. -/
def entries : Node → Entries
  | .directory entries => entries
  | _ => []

/-- What stands below a node at the given names. -/
def at? : Node → List String → Option Node
  | node, [] => some node
  | .directory entries, name :: rest => (findEntry name entries).bind (·.at? rest)
  | _, _ :: _ => none

/-- Changes what stands at the given names. Directories on the way are created as needed, and a
file or link in the way stops the change. -/
def alterAt (change : Option Node → Option Node) : List String → Option Node → Option Node
  | [], node => change node
  | name :: rest, none =>
    (alterAt change rest none).map fun inner => .directory [(name, inner)]
  | name :: rest, some (.directory entries) =>
    some (.directory (alterEntry name (alterAt change rest) entries))
  | _ :: _, some other => some other

theorem mem_alterEntry {name : String} {change : Option Node → Option Node} {entries : Entries}
    {e : String × Node} (mem : e ∈ alterEntry name change entries) :
    e ∈ entries ∨ ∃ before, (∀ node, before = some node → ∃ n, (n, node) ∈ entries) ∧
      change before = some e.2 := by
  induction entries with
  | nil =>
    refine Or.inr ⟨none, by simp, ?_⟩
    cases found : change none <;> simp_all [alterEntry]
  | cons head rest ih =>
    obtain ⟨k, v⟩ := head
    simp only [alterEntry] at mem
    split at mem
    · rcases List.mem_append.mp mem with new | old
      · refine Or.inr ⟨none, by simp, ?_⟩
        cases found : change none <;> simp_all
      · exact Or.inl old
    · rcases List.mem_append.mp mem with new | old
      · refine Or.inr ⟨some v, fun node same => ⟨k, by simp_all⟩, ?_⟩
        cases found : change (some v) <;> simp_all
      · exact Or.inl (List.mem_cons_of_mem _ old)
    · rcases List.mem_cons.mp mem with same | later
      · exact Or.inl (same ▸ List.mem_cons_self ..)
      · rcases ih later with old | ⟨before, held, changed⟩
        · exact Or.inl (List.mem_cons_of_mem _ old)
        · refine Or.inr ⟨before, fun node same => ?_, changed⟩
          obtain ⟨n, present⟩ := held node same
          exact ⟨n, List.mem_cons_of_mem _ present⟩

/-- A change that only makes ordered nodes keeps a tree ordered. -/
theorem ordered_alterAt {change : Option Node → Option Node}
    (keeps : ∀ before after, (∀ node, before = some node → node.Ordered) →
      change before = some after → after.Ordered)
    {names : List String} {before : Option Node} (start : ∀ node, before = some node → node.Ordered)
    {after : Node} (changed : alterAt change names before = some after) : after.Ordered := by
  induction names generalizing before after with
  | nil => exact keeps before after start changed
  | cons name rest ih =>
    cases before with
    | none =>
      simp only [alterAt] at changed
      obtain ⟨inner, made, rfl⟩ := Option.map_eq_some_iff.mp changed
      refine .directory (by simp) fun e mem => ?_
      simp only [List.mem_singleton] at mem
      rw [mem]
      exact ih (by simp) made
    | some node =>
      have ordered := start node rfl
      cases node with
      | file bytes => simp only [alterAt, Option.some.injEq] at changed; exact changed ▸ ordered
      | link target => simp only [alterAt, Option.some.injEq] at changed; exact changed ▸ ordered
      | directory entries =>
        simp only [alterAt, Option.some.injEq] at changed
        subst changed
        cases ordered with
        | directory ascending inner =>
          refine .directory (pairwise_alterEntry ascending) fun e mem => ?_
          rcases mem_alterEntry mem with old | ⟨held, present, made⟩
          · exact inner e old
          · refine ih (fun node same => ?_) made
            obtain ⟨n, mem⟩ := present node same
            exact inner (n, node) mem

/-! The directories of a tree are walked before what they hold, by ascending name. A directory that
refuses to be listed is walked itself, but nothing below it is. -/

section Walk

variable (refuses : List String → Bool)

mutual

/-- The paths of a directory and the directories below it, given its own location and path. Links are
not followed. -/
def directoriesFrom (here : List String) (path : Path) : Node → List Path
  | .directory entries => path :: if refuses here then [] else directoriesIn here path entries
  | _ => []

/-- The paths of the directories among and below the entries of a directory. -/
def directoriesIn (here : List String) (path : Path) : List (String × Node) → List Path
  | [] => []
  | e :: rest => directoriesOf here path e ++ directoriesIn here path rest

/-- The paths of an entry that is a directory and of the directories below it. -/
def directoriesOf (here : List String) (path : Path) : String × Node → List Path
  | (name, node) => directoriesFrom (here ++ [name]) (path.child name) node

end

end Walk

end Node

end PackageLoader
