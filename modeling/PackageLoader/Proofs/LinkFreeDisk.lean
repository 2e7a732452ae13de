import PackageLoader.Proofs.PathNormalForm
import PackageLoader.Proofs.TableLaws

/-! Walking without links. On a disk that has none, a walk is decided by what kind of thing stands at
each location that it comes through, and a path that spells a location leads there or nowhere. Two
disks with the same directories therefore give every walk the same result, as far as the second disk
holds all that the first one holds. -/
namespace PackageLoader.LinkFreeDisk
open Disk PathNormalForm TableLaws

/-! ## Locations -/

/-- What stands at a location, leaving out what is below it. -/
inductive Kind where
  | file (bytes : Text.Bytes)
  | link (target : String)
  | directory
  deriving DecidableEq

def kind : Node → Kind
  | .file bytes => .file bytes
  | .link target => .link target
  | .directory _ => .directory

def kind? (disk : Disk) (location : List String) : Option Kind :=
  (disk.node? location).map kind

/-- There are no links, and entries have names that can stand between separators. -/
def LinkFree (disk : Disk) : Prop :=
  ∀ location kind, kind? disk location = some kind →
    (∀ name ∈ location, IsName name) ∧ ∀ target, kind ≠ .link target

theorem kind?_directory {disk : Disk} {location : List String} :
    kind? disk location = some .directory ↔
      ∃ entries, disk.node? location = some (.directory entries) := by
  unfold kind?
  cases disk.node? location with
  | none => simp
  | some node => cases node <;> simp [kind]

theorem kind?_isSome (disk : Disk) (location : List String) :
    (kind? disk location).isSome = (disk.node? location).isSome := by
  simp [kind?]

theorem at?_append (node : Node) (first second : List String) :
    node.at? (first ++ second) = (node.at? first).bind (·.at? second) := by
  induction first generalizing node with
  | nil => simp [Node.at?]
  | cons name rest ih =>
    cases node with
    | directory entries =>
      simp only [List.cons_append, Node.at?, Option.bind_assoc]
      exact Option.bind_congr fun inner _ => ih inner
    | _ => rfl

/-- What stands one name below a directory is its entry with that name. -/
theorem node?_child {disk : Disk} {here : List String} {entries : Entries}
    (stands : disk.node? here = some (.directory entries)) (name : String) :
    disk.node? (here ++ [name]) = findEntry name entries := by
  unfold node? at stands ⊢
  rw [at?_append, stands]
  simp [Node.at?]

theorem ordered_at {node below : Node} (ordered : node.Ordered) {location : List String}
    (stands : node.at? location = some below) : below.Ordered := by
  induction location generalizing node with
  | nil =>
    cases stands
    exact ordered
  | cons name rest ih =>
    cases ordered with
    | directory ascending inner =>
      obtain ⟨next, found, further⟩ := Option.bind_eq_some_iff.mp stands
      obtain ⟨_, member, -⟩ := mem_of_findEntry found
      exact ih (inner _ member) further
    | _ => cases stands

/-- The entries of a directory are what stands one name below it. -/
theorem mem_entries_iff {disk : Disk} {here : List String} {entries : Entries}
    (stands : disk.node? here = some (.directory entries)) (name : String) :
    name ∈ entries.map (·.1) ↔ (kind? disk (here ++ [name])).isSome := by
  rw [kind?_isSome, node?_child stands, Option.isSome_iff_exists]
  constructor
  · intro member
    exact exists_findEntry member Std.ReflOrd.compare_self
  · rintro ⟨node, found⟩
    obtain ⟨k, member, same⟩ := mem_of_findEntry found
    exact Std.LawfulEqCmp.eq_of_compare same ▸ List.mem_map_of_mem member

theorem ascending_at {disk : Disk} {here : List String} {entries : Entries}
    (stands : disk.node? here = some (.directory entries)) : entries.Pairwise KeyBefore := by
  cases ordered_at disk.ordered stands with
  | directory ascending inner => exact ascending

theorem found_of_mem {disk : Disk} {here : List String} {entries : Entries}
    (stands : disk.node? here = some (.directory entries)) {e : String × Node} (listed : e ∈ entries) :
    disk.node? (here ++ [e.1]) = some e.2 := by
  rw [node?_child stands]
  exact (get?_eq_some_iff (t := ⟨entries, ascending_at stands⟩)).mpr listed

/-- Things stand in directories. -/
theorem kind?_above {disk : Disk} {here below : List String}
    (stands : (kind? disk (here ++ below)).isSome) (filled : below ≠ []) :
    kind? disk here = some .directory := by
  obtain ⟨name, rest, rfl⟩ := List.exists_cons_of_ne_nil filled
  rw [kind?_isSome, node?, at?_append] at stands
  rw [kind?_directory, node?]
  cases found : (Node.directory disk.root).at? here with
  | none => simp [found] at stands
  | some node =>
    cases node with
    | directory entries => exact ⟨entries, rfl⟩
    | _ => simp [found, Node.at?] at stands

/-! ## Checking -/

mutual

/-- The locations of all that stands at and below a node. -/
def locationsAt : Node → List (List String)
  | .directory entries => [] :: locationsIn entries
  | _ => [[]]

def locationsIn : List (String × Node) → List (List String)
  | [] => []
  | e :: rest => locationsOf e ++ locationsIn rest

def locationsOf : String × Node → List (List String)
  | (name, node) => (locationsAt node).map (name :: ·)

end

theorem locationsIn_eq (entries : Entries) : locationsIn entries = entries.flatMap locationsOf := by
  induction entries with
  | nil => rfl
  | cons e rest ih => rw [locationsIn, ih, List.flatMap_cons]

theorem mem_locationsAt {node : Node} {location : List String}
    (stands : (node.at? location).isSome) : location ∈ locationsAt node := by
  induction location generalizing node with
  | nil => cases node <;> simp [locationsAt]
  | cons name rest ih =>
    cases node with
    | directory entries =>
      obtain ⟨below, found⟩ := Option.isSome_iff_exists.mp stands
      obtain ⟨inner, entry, further⟩ := Option.bind_eq_some_iff.mp found
      obtain ⟨_, member, same⟩ := mem_of_findEntry entry
      obtain rfl := Std.LawfulEqCmp.eq_of_compare same
      have listed : name :: rest ∈ locationsOf (name, inner) :=
        List.mem_map_of_mem (ih (by simp [further]))
      rw [locationsAt, locationsIn_eq]
      exact List.mem_cons_of_mem _ (List.mem_flatMap.mpr ⟨_, member, listed⟩)
    | _ => cases stands

theorem mem_locationsBelow {disk : Disk} {here below : List String}
    (stands : (disk.node? (here ++ below)).isSome) :
    below ∈ (disk.node? here).elim [] locationsAt := by
  unfold node? at stands ⊢
  rw [at?_append] at stands
  cases found : (Node.directory disk.root).at? here with
  | none => simp [found] at stands
  | some node => exact mem_locationsAt (by simpa [found] using stands)

theorem ordered_directory_iff {entries : Entries} : (Node.directory entries).Ordered ↔
    entries.Pairwise KeyBefore ∧ ∀ e ∈ entries, e.2.Ordered := by
  constructor
  · intro ordered
    cases ordered with
    | directory ascending inner => exact ⟨ascending, inner⟩
  · rintro ⟨ascending, inner⟩
    exact .directory ascending inner

mutual

/-- Whether a tree is in order is told entry by entry. -/
def decideOrdered : (node : Node) → Decidable node.Ordered
  | .file bytes => .isTrue (.file bytes)
  | .link target => .isTrue (.link target)
  | .directory entries =>
    have := decideInner entries
    decidable_of_iff _ ordered_directory_iff.symm

def decideInner : (entries : List (String × Node)) → Decidable (∀ e ∈ entries, e.2.Ordered)
  | [] => .isTrue (List.forall_mem_nil _)
  | e :: rest =>
    have := decideEntry e
    have := decideInner rest
    decidable_of_iff _ List.forall_mem_cons.symm

def decideEntry : (e : String × Node) → Decidable e.2.Ordered
  | (_, node) => decideOrdered node

end

instance (node : Node) : Decidable node.Ordered := decideOrdered node

instance (kind : Kind) : Decidable (∀ target, kind ≠ .link target) :=
  match kind with
  | .file _ => .isTrue nofun
  | .directory => .isTrue nofun
  | .link target => .isFalse fun none => none target rfl

/-- Whether a disk has no links is told by what stands on it. -/
instance (disk : Disk) : Decidable (LinkFree disk) :=
  decidable_of_iff (∀ location ∈ locationsAt (.directory disk.root), ∀ kind ∈ kind? disk location,
      (∀ name ∈ location, IsName name) ∧ ∀ target, kind ≠ .link target)
    ⟨fun proper location kind stands => proper location
        (mem_locationsAt (kind?_isSome disk location ▸ stands ▸ rfl)) kind stands,
      fun linkFree location _ kind stands => linkFree location kind stands⟩

/-! ## Walks -/

section Walks

variable {disk : Disk} {how : Resolution}
  {follow : String → List String → List String → Except StorageError (List String)}

/-- A step by name, in a directory of a disk without links. -/
theorem walkAlong_name (linkFree : LinkFree disk) {here : List String} {name : String}
    (noCurrent : name ≠ ".") (noParent : name ≠ "..") (stands : kind? disk here = some .directory)
    (rest : List String) :
    disk.walkAlong how follow here (name :: rest) =
      if name.utf8ByteSize > maxNameLength then .error .nameTooLong
      else if (kind? disk (here ++ [name])).isSome || how.mayMiss
        then disk.walkAlong how follow (here ++ [name]) rest
      else .error .notFound := by
  obtain ⟨entries, node⟩ := kind?_directory.mp stands
  have entry := node?_child node name
  rw [walkAlong]
  simp only [node, noCurrent, noParent, ↓reduceIte]
  split
  · rfl
  · cases found : findEntry name entries with
    | none => simp [kind?, entry, found]
    | some inner =>
      have stands : kind? disk (here ++ [name]) = some (kind inner) := by
        rw [kind?, entry, found, Option.map_some]
      cases inner with
      | link target => exact absurd rfl ((linkFree _ _ stands).2 target)
      | _ => simp [stands]

/-- Names that lead to something are walked one by one, unless one of them is too long. -/
theorem walkAlong_names (linkFree : LinkFree disk) {here names : List String}
    (valid : ∀ name ∈ names, IsName name) (stands : (kind? disk (here ++ names)).isSome)
    (rest : List String) : disk.walkAlong how follow here (names ++ rest) =
      if ∃ name ∈ names, name.utf8ByteSize > maxNameLength then .error .nameTooLong
      else disk.walkAlong how follow (here ++ names) rest := by
  induction names generalizing here with
  | nil => simp
  | cons name names ih =>
    have above := kind?_above stands (List.cons_ne_nil name names)
    have next : here ++ name :: names = (here ++ [name]) ++ names := by simp
    rw [next] at stands ⊢
    have first : (kind? disk (here ++ [name])).isSome := by
      cases names with
      | nil => simpa using stands
      | cons second later => simp [kind?_above stands (List.cons_ne_nil second later)]
    obtain ⟨-, noCurrent, noParent⟩ := valid name (List.mem_cons_self ..)
    rw [List.cons_append, walkAlong_name linkFree noCurrent noParent above, first,
      ih (fun n member => valid n (List.mem_cons_of_mem _ member)) stands]
    simp only [List.mem_cons, exists_eq_or_imp, Bool.true_or, ↓reduceIte]
    by_cases long : name.utf8ByteSize > maxNameLength <;> simp [long]

/-- A walk by names that arrives is at the location of these names, and something is there. -/
theorem walkAlong_arrives (linkFree : LinkFree disk) (exact : how.mayMiss = false)
    {here names rest location : List String} (valid : ∀ name ∈ names, IsName name)
    (final : rest = [] ∨ rest = ["."])
    (arrived : disk.walkAlong how follow here (names ++ rest) = .ok location) :
    location = here ++ names ∧ (kind? disk location).isSome := by
  have stay {here : List String} (arrived : disk.walkAlong how follow here [] = .ok location) :
      location = here ∧ (kind? disk location).isSome := by
    rw [walkAlong, exact, Bool.false_or] at arrived
    split at arrived
    · rename_i present
      cases arrived
      exact ⟨rfl, kind?_isSome disk location ▸ present⟩
    · cases arrived
  induction names generalizing here with
  | nil =>
    rw [List.append_nil]
    rcases final with rfl | rfl
    · exact stay arrived
    · cases node : disk.node? here with
      | none => simp [walkAlong, node, exact] at arrived
      | some inner =>
        cases inner with
        | directory entries =>
          refine stay ?_
          rw [← arrived]
          simp [walkAlong, node]
        | _ => simp [walkAlong, node] at arrived
  | cons name names ih =>
    have home : kind? disk here = some .directory := by
      cases node : disk.node? here with
      | none => simp [walkAlong, node, exact] at arrived
      | some inner =>
        cases inner with
        | directory entries => exact kind?_directory.mpr ⟨entries, node⟩
        | _ => simp [walkAlong, node] at arrived
    obtain ⟨-, noCurrent, noParent⟩ := valid name (List.mem_cons_self ..)
    rw [List.cons_append, walkAlong_name linkFree noCurrent noParent home] at arrived
    split at arrived
    · cases arrived
    split at arrived
    · have next := ih (fun n member => valid n (List.mem_cons_of_mem _ member)) arrived
      rwa [List.append_assoc, List.singleton_append] at next
    · cases arrived

end Walks

/-! ## Paths that spell locations -/

theorem exists_follow (disk : Disk) (how : Resolution) (links : Nat) :
    ∃ follow, ∀ here steps, disk.walk how links here steps = disk.walkAlong how follow here steps := by
  cases links with
  | zero => exact ⟨_, fun _ _ => rfl⟩
  | succ links => exact ⟨_, fun _ _ => rfl⟩

/-- A path that spells the location of something leads somewhere, unless it is refused for its length
or for what it is spelled with. -/
theorem resolve_stands {disk : Disk} (linkFree : LinkFree disk) {how : Resolution} {p : Path}
    {names : List String} (leads : Leads p names) (stands : (kind? disk names).isSome) :
    disk.resolve how p ≠ .error .notFound := by
  obtain ⟨follow, walks⟩ := exists_follow disk how maxLinks
  have absolute := spells_isAbsolute leads.spells
  have present : (disk.node? names).isSome := kind?_isSome disk names ▸ stands
  unfold Disk.resolve
  rw [walks, absolute, isEmpty_of_isAbsolute absolute]
  simp only [↓reduceIte, Bool.false_eq_true]
  split
  · simp
  split
  · simp
  have along := @walkAlong_names disk how follow linkFree [] names leads.valid stands
  rcases leads_walkSteps leads with steps | steps
  · have arrives := along []
    rw [List.append_nil] at arrives
    rw [steps, arrives]
    split
    · simp
    · simp [walkAlong, present]
  · rw [steps, along]
    split
    · simp
    · cases node : disk.node? names with
      | none => simp [node] at present
      | some inner => cases inner <;> simp [walkAlong, node]

theorem resolve_arrives {disk : Disk} (linkFree : LinkFree disk) {how : Resolution}
    (exact : how.mayMiss = false) {p : Path} {names location : List String} (leads : Leads p names)
    (arrived : disk.resolve how p = .ok location) :
    location = names ∧ (kind? disk location).isSome := by
  obtain ⟨follow, walks⟩ := exists_follow disk how maxLinks
  have absolute := spells_isAbsolute leads.spells
  unfold Disk.resolve at arrived
  rw [walks, absolute, isEmpty_of_isAbsolute absolute] at arrived
  simp only [↓reduceIte, Bool.false_eq_true] at arrived
  split at arrived
  · cases arrived
  split at arrived
  · cases arrived
  rcases leads_walkSteps leads with steps | steps
  · rw [steps, ← List.append_nil names] at arrived
    exact walkAlong_arrives linkFree exact leads.valid (Or.inl rfl) arrived
  · rw [steps] at arrived
    exact walkAlong_arrives linkFree exact leads.valid (Or.inr rfl) arrived

/-- The path and the names in it are of a length that the file system takes, and spelled with what it
takes. -/
structure Fits (p : Path) : Prop where
  spelling : p.text.toList.contains '\x00' = false
  length : p.text.utf8ByteSize < maxPathLength
  names : ∀ segment ∈ p.segments, segment.1.utf8ByteSize ≤ maxNameLength

/-- A path in normal form that is not refused leads to its location if something stands there, or if
its directory does and nothing has to stand there. -/
theorem resolve_fits {disk : Disk} (linkFree : LinkFree disk) {how : Resolution}
    {names : List String} {name : String} (valid : ∀ n ∈ names, IsName n) (last : IsName name)
    (fits : Fits (canonicalPath (names ++ [name])))
    (home : kind? disk names = some .directory)
    (stands : how.mayMiss = true ∨ (kind? disk (names ++ [name])).isSome) :
    disk.resolve how (canonicalPath (names ++ [name])) = .ok (names ++ [name]) := by
  obtain ⟨follow, walks⟩ := exists_follow disk how maxLinks
  have all := names_concat valid last
  have leads := leads_canonicalPath all
  have steps := canonicalPath_walkSteps valid last
  have narrow : ∀ n ∈ names ++ [name], n.utf8ByteSize ≤ maxNameLength := by
    intro n member
    rw [← leads_segments leads] at member
    obtain ⟨segment, read, rfl⟩ := List.mem_map.mp member
    exact fits.names segment read
  have short : ¬ ∃ n ∈ names, n.utf8ByteSize > maxNameLength := by
    rintro ⟨n, member, long⟩
    exact Nat.not_le.mpr long (narrow n (List.mem_append_left _ member))
  have width : ¬ name.utf8ByteSize > maxNameLength :=
    Nat.not_lt.mpr (narrow name (List.mem_append_right _ (List.mem_singleton_self _)))
  have along := @walkAlong_names disk how follow linkFree [] names valid
    (by rw [List.nil_append, home]; rfl) [name]
  rw [List.nil_append, if_neg short, walkAlong_name linkFree last.noCurrent last.noParent home,
    if_neg width] at along
  have absolute := spells_isAbsolute leads.spells
  unfold Disk.resolve
  rw [walks, absolute, isEmpty_of_isAbsolute absolute, fits.spelling, steps]
  simp only [↓reduceIte, Bool.false_eq_true, Nat.not_le.mpr fits.length]
  rw [along]
  rcases stands with may | present
  · simp [may, walkAlong]
  · simp [present, walkAlong, ← kind?_isSome]

/-! ## Directories below a path -/

/-- The path of a directory, spelled in normal form. -/
def IsHome (disk : Disk) (p : Path) : Prop :=
  ∃ names, Leads p names ∧ kind? disk names = some .directory

section Walked

variable {disk : Disk} {refuses : List String → Bool}

mutual

theorem home_of_mem_directoriesFrom (linkFree : LinkFree disk) :
    (node : Node) → {p : Path} → {names : List String} → Leads p names →
      disk.node? names = some node → ∀ d ∈ Node.directoriesFrom refuses names p node, IsHome disk d
  | .directory entries, p, names, leads, stands => by
    intro d member
    rw [Node.directoriesFrom] at member
    rcases List.mem_cons.mp member with rfl | below
    · exact ⟨names, leads, kind?_directory.mpr ⟨entries, stands⟩⟩
    · split at below
      · cases below
      · exact home_of_mem_directoriesIn linkFree entries leads
          (fun e listed => found_of_mem stands listed) d below
  | .file bytes, p, names, leads, stands => by
    intro d member
    cases member
  | .link target, p, names, leads, stands => by
    intro d member
    cases member

theorem home_of_mem_directoriesIn (linkFree : LinkFree disk) :
    (entries : List (String × Node)) → {p : Path} → {names : List String} → Leads p names →
      (∀ e ∈ entries, disk.node? (names ++ [e.1]) = some e.2) →
      ∀ d ∈ Node.directoriesIn refuses names p entries, IsHome disk d
  | [], p, names, leads, stand => by
    intro d member
    cases member
  | e :: rest, p, names, leads, stand => by
    intro d member
    rw [Node.directoriesIn] at member
    rcases List.mem_append.mp member with first | later
    · exact home_of_mem_directoriesOf linkFree e leads (stand e (List.mem_cons_self ..)) d first
    · exact home_of_mem_directoriesIn linkFree rest leads
        (fun e member => stand e (List.mem_cons_of_mem _ member)) d later

theorem home_of_mem_directoriesOf (linkFree : LinkFree disk) :
    (e : String × Node) → {p : Path} → {names : List String} → Leads p names →
      disk.node? (names ++ [e.1]) = some e.2 →
      ∀ d ∈ Node.directoriesOf refuses names p e, IsHome disk d
  | (name, node), p, names, leads, stands => by
    intro d member
    have present : kind? disk (names ++ [name]) = some (kind node) := by
      rw [kind?, stands, Option.map_some]
    have valid := (linkFree _ _ present).1
    refine home_of_mem_directoriesFrom linkFree node ?_ stands d member
    rw [leads_child leads (valid name (by simp))]
    exact leads_canonicalPath valid

end

variable {refuses' : List String → Bool}

mutual

/-- A walk only asks whether directories refuse to be listed. -/
theorem directoriesFrom_congr (agree : ∀ location, kind? disk location = some .directory →
    refuses location = refuses' location) : (node : Node) → {p : Path} → {names : List String} →
      disk.node? names = some node →
      Node.directoriesFrom refuses names p node = Node.directoriesFrom refuses' names p node
  | .directory entries, p, names, stands => by
    rw [Node.directoriesFrom, Node.directoriesFrom, agree names (kind?_directory.mpr ⟨entries, stands⟩),
      directoriesIn_congr agree entries fun e listed => found_of_mem stands listed]
  | .file bytes, p, names, stands => by rw [Node.directoriesFrom, Node.directoriesFrom] <;> simp
  | .link target, p, names, stands => by rw [Node.directoriesFrom, Node.directoriesFrom] <;> simp

theorem directoriesIn_congr (agree : ∀ location, kind? disk location = some .directory →
    refuses location = refuses' location) : (entries : List (String × Node)) → {p : Path} →
      {names : List String} → (∀ e ∈ entries, disk.node? (names ++ [e.1]) = some e.2) →
      Node.directoriesIn refuses names p entries = Node.directoriesIn refuses' names p entries
  | [], p, names, stand => by rw [Node.directoriesIn, Node.directoriesIn]
  | e :: rest, p, names, stand => by
    rw [Node.directoriesIn, Node.directoriesIn,
      directoriesOf_congr agree e (stand e (List.mem_cons_self ..)),
      directoriesIn_congr agree rest fun e member => stand e (List.mem_cons_of_mem _ member)]

theorem directoriesOf_congr (agree : ∀ location, kind? disk location = some .directory →
    refuses location = refuses' location) : (e : String × Node) → {p : Path} → {names : List String} →
      disk.node? (names ++ [e.1]) = some e.2 →
      Node.directoriesOf refuses names p e = Node.directoriesOf refuses' names p e
  | (name, node), p, names, stands => by
    rw [Node.directoriesOf, Node.directoriesOf, directoriesFrom_congr agree node stands]

end

end Walked

/-! ## A disk that holds more -/

/-- The second disk has the directories of the first one and holds all that the first one holds. -/
structure Extends (small large : Disk) : Prop where
  linkFree : LinkFree small
  linkFreeLarge : LinkFree large
  workingDir : large.workingDir = small.workingDir
  directories : ∀ location,
    kind? large location = some .directory ↔ kind? small location = some .directory
  present : ∀ location, (kind? small location).isSome → (kind? large location).isSome

theorem not_link {disk : Disk} (linkFree : LinkFree disk) {location : List String} {target : String} :
    disk.node? location ≠ some (.link target) := by
  intro node
  exact (linkFree location (.link target) (by rw [kind?, node]; rfl)).2 target rfl

/-- Where the small disk has nothing, the large one has at most a file, and no walk goes on there. -/
theorem walkAlong_absent {small large : Disk} (more : Extends small large) {how : Resolution}
    (exact : how.mayMiss = false)
    {follow : String → List String → List String → Except StorageError (List String)}
    {here steps location : List String} (absent : small.node? here = none)
    (arrived : large.walkAlong how follow here steps = .ok location) :
    location = here := by
  have nowhere : kind? large here ≠ some .directory := by
    rw [ne_eq, more.directories, kind?, absent]
    simp
  cases steps with
  | nil =>
    rw [walkAlong] at arrived
    split at arrived <;> cases arrived
    rfl
  | cons step rest =>
    cases node : large.node? here with
    | none => simp [walkAlong, node, exact] at arrived
    | some inner =>
      cases inner with
      | directory entries => exact absurd (kind?_directory.mpr ⟨entries, node⟩) nowhere
      | _ => simp [walkAlong, node] at arrived

/-- What is found on the small disk is found on the large one, which finds no more than what only it
holds. -/
structure Extended (small : Disk) (found found' : Except StorageError (List String)) : Prop where
  kept : found ≠ .error .notFound → found' = found
  beyond : ∀ location, found' = .ok location → found = .ok location ∨ kind? small location = none

theorem extended_refl (small : Disk) (found : Except StorageError (List String)) :
    Extended small found found :=
  ⟨fun _ => rfl, fun _ arrived => Or.inl arrived⟩

theorem extended_lost {small : Disk} {found found' : Except StorageError (List String)}
    (lost : found = .error .notFound)
    (beyond : ∀ location, found' = .ok location → kind? small location = none) :
    Extended small found found' :=
  ⟨fun present => absurd lost present, fun location arrived => Or.inr (beyond location arrived)⟩

section Extends

variable {small large : Disk} {how : Resolution}
  {follow follow' : String → List String → List String → Except StorageError (List String)}

/-- A walk from where the small disk has nothing. -/
theorem walkAlong_lost (more : Extends small large) (exact : how.mayMiss = false)
    {here : List String} (absent : small.node? here = none) (steps : List String) :
    Extended small (small.walkAlong how follow here steps)
      (large.walkAlong how follow' here steps) := by
  apply extended_lost
  · cases steps <;> simp [walkAlong, exact, absent]
  · intro location arrived
    rw [walkAlong_absent more exact absent arrived, kind?, absent]
    rfl

theorem walkAlong_extends (more : Extends small large) (exact : how.mayMiss = false)
    (here steps : List String) :
    Extended small (small.walkAlong how follow here steps)
      (large.walkAlong how follow' here steps) := by
  induction steps generalizing here with
  | nil =>
    cases node : small.node? here with
    | none => exact walkAlong_lost more exact node []
    | some inner =>
      have kept := more.present here
      rw [kind?_isSome, kind?_isSome, node] at kept
      simpa [walkAlong, kept, node] using extended_refl small _
  | cons step rest ih =>
    cases node : small.node? here with
    | none => exact walkAlong_lost more exact node (step :: rest)
    | some inner =>
      cases inner with
      | link target => exact absurd node (not_link more.linkFree)
      | file bytes =>
        have kept := more.present here (by rw [kind?, node]; rfl)
        have other : kind? large here ≠ some .directory := by
          rw [ne_eq, more.directories, kind?, node]
          simp [kind]
        obtain ⟨inner, node'⟩ := Option.isSome_iff_exists.mp (kind?_isSome large here ▸ kept)
        cases inner with
        | directory entries => exact absurd (kind?_directory.mpr ⟨entries, node'⟩) other
        | _ => simpa [walkAlong, node, node'] using extended_refl small _
      | directory entries =>
        have home : kind? small here = some .directory := kind?_directory.mpr ⟨entries, node⟩
        have home' := (more.directories here).mpr home
        obtain ⟨entries', node'⟩ := kind?_directory.mp home'
        by_cases current : step = "."
        · simpa [walkAlong, node, node', current] using ih here
        by_cases parent : step = ".."
        · simpa [walkAlong, node, node', parent] using ih here.dropLast
        rw [walkAlong_name more.linkFree current parent home,
          walkAlong_name more.linkFreeLarge current parent home']
        simp only [exact, Bool.or_false]
        split
        · exact extended_refl small _
        cases present : (kind? small (here ++ [step])).isSome with
        | true => simpa [more.present _ present] using ih (here ++ [step])
        | false =>
          rw [kind?_isSome, Option.isSome_eq_false_iff, Option.isNone_iff_eq_none] at present
          apply extended_lost
          · simp
          · intro location arrived
            split at arrived
            · rw [walkAlong_absent more exact present arrived, kind?, present]
              rfl
            · cases arrived

theorem resolve_extends (more : Extends small large) (exact : how.mayMiss = false) (p : Path) :
    Extended small (small.resolve how p) (large.resolve how p) := by
  obtain ⟨follow, walks⟩ := exists_follow small how maxLinks
  obtain ⟨follow', walks'⟩ := exists_follow large how maxLinks
  unfold Disk.resolve
  rw [walks, walks', more.workingDir]
  split
  · exact extended_refl small _
  split
  · exact extended_refl small _
  split
  · exact extended_refl small _
  exact walkAlong_extends more exact _ _

end Extends

/-! ## Calls -/

theorem mayMiss_default : ({} : Resolution).mayMiss = false := rfl

theorem stat_eq_ok_iff {disk : Disk} {how : Resolution} {p : Path} {node : Node} :
    disk.stat how p = .ok node ↔
      ∃ location, disk.resolve how p = .ok location ∧ disk.node? location = some node := by
  unfold Disk.stat
  cases disk.resolve how p with
  | error cause => simp [bind, Except.bind]
  | ok location =>
    cases found : disk.node? location <;> simp [bind, Except.bind, found]

theorem isFile_iff_stat {disk : Disk} {p : Path} : disk.isFile p = true ↔
    ∃ bytes, disk.stat {} p = .ok (.file bytes) := by
  unfold Disk.isFile
  split <;> simp_all

theorem isFile_iff {disk : Disk} {p : Path} : disk.isFile p = true ↔
    ∃ location bytes, disk.resolve {} p = .ok location ∧
      kind? disk location = some (.file bytes) := by
  have kinds {location : List String} {bytes : Text.Bytes} :
      kind? disk location = some (.file bytes) ↔ disk.node? location = some (.file bytes) := by
    unfold kind?
    cases disk.node? location with
    | none => simp
    | some node => cases node <;> simp [kind]
  rw [isFile_iff_stat]
  simp only [stat_eq_ok_iff, kinds]
  exact exists_comm

theorem contents_eq (disk : Disk) (p : Path) : disk.contents p =
    match disk.resolve {} p with
    | .error cause => .error cause
    | .ok location =>
      match kind? disk location with
      | some (.file bytes) =>
        if disk.refuses location then .error .permissionDenied else .ok bytes
      | some .directory =>
        .error (if disk.refuses location then .permissionDenied else .isADirectory)
      | _ => .error .notFound := by
  unfold Disk.contents
  cases disk.resolve {} p with
  | error cause => rfl
  | ok location =>
    simp only [bind, Except.bind, kind?]
    cases disk.node? location with
    | none => rfl
    | some inner =>
      cases inner with
      | directory entries =>
        simp only [Option.map_some, kind]
        split <;> rfl
      | _ => rfl

theorem opened_eq_ok_iff {disk : Disk} {p : Path} {location : List String} {entries : Entries} :
    disk.opened p = .ok (location, entries) ↔ disk.resolve {} p = .ok location ∧
      disk.node? location = some (.directory entries) ∧ disk.refuses location = false := by
  unfold Disk.opened
  cases disk.resolve {} p with
  | error cause => simp [bind, Except.bind]
  | ok arrived =>
    have opens (inner : Entries) : (if disk.refuses arrived = true then
        Except.error StorageError.permissionDenied else .ok (arrived, inner)) = .ok (location, entries) ↔
          (arrived = location ∧ inner = entries) ∧ disk.refuses arrived = false := by
      cases disk.refuses arrived <;> simp
    simp only [bind, Except.bind, Except.ok.injEq]
    cases node : disk.node? arrived with
    | none =>
      simp only [reduceCtorEq, false_iff, not_and]
      rintro rfl stands
      cases node.symm.trans stands
    | some inner =>
      cases inner with
      | directory inner =>
        simp only [opens]
        constructor
        · rintro ⟨⟨rfl, rfl⟩, open'⟩
          exact ⟨rfl, node, open'⟩
        · rintro ⟨rfl, stands, open'⟩
          cases node.symm.trans stands
          exact ⟨⟨rfl, rfl⟩, open'⟩
      | _ =>
        simp only [reduceCtorEq, false_iff, not_and]
        rintro rfl stands
        cases node.symm.trans stands

theorem listing_eq (disk : Disk) (p : Path) : disk.listing p =
    match disk.resolve {} p with
    | .error cause => .error cause
    | .ok location =>
      match disk.node? location with
      | some (.directory entries) =>
        if disk.refuses location then .error .permissionDenied
        else .ok (entries.map fun e => p.child e.1)
      | some _ => .error .notADirectory
      | none => .error .notFound := by
  unfold Disk.listing Disk.opened
  cases disk.resolve {} p with
  | error cause => rfl
  | ok location =>
    simp only [bind, Except.bind]
    cases disk.node? location with
    | none => rfl
    | some inner =>
      cases inner with
      | directory entries => cases disk.refuses location <;> rfl
      | _ => rfl

theorem isDir_iff_stat {disk : Disk} {p : Path} : disk.isDir p = true ↔
    ∃ entries, disk.stat {} p = .ok (.directory entries) := by
  unfold Disk.isDir
  split <;> simp_all

theorem isDir_iff {disk : Disk} {p : Path} : disk.isDir p = true ↔
    ∃ location, disk.resolve {} p = .ok location ∧ kind? disk location = some .directory := by
  rw [isDir_iff_stat]
  simp only [stat_eq_ok_iff, kind?_directory]
  constructor
  · rintro ⟨entries, location, arrived, node⟩
    exact ⟨location, arrived, entries, node⟩
  · rintro ⟨location, arrived, entries, node⟩
    exact ⟨entries, location, arrived, node⟩

/-- Both disks take the same paths for directories. -/
theorem isDir_extends {small large : Disk} (more : Extends small large) (p : Path) :
    large.isDir p = small.isDir p := by
  obtain ⟨found, onlyThere⟩ := resolve_extends more mayMiss_default p
  rw [Bool.eq_iff_iff, isDir_iff, isDir_iff]
  constructor
  · rintro ⟨location, arrived, directory⟩
    rw [more.directories] at directory
    rcases onlyThere location arrived with same | absent
    · exact ⟨location, same, directory⟩
    · rw [absent] at directory
      cases directory
  · rintro ⟨location, arrived, directory⟩
    refine ⟨location, (found (by rw [arrived]; simp)).trans arrived, ?_⟩
    rwa [more.directories]

section Same

variable {small large : Disk} {p : Path} {names : List String}

theorem resolve_same (more : Extends small large) (leads : Leads p names)
    (stands : (kind? small names).isSome) {how : Resolution} (exact : how.mayMiss = false) :
    large.resolve how p = small.resolve how p :=
  (resolve_extends more exact p).kept (resolve_stands more.linkFree leads stands)

/-- Something that is the same on both disks has the same contents on both. -/
theorem contents_same (more : Extends small large) (leads : Leads p names)
    (stands : (kind? small names).isSome) (same : kind? large names = kind? small names)
    (access : large.refuses names = small.refuses names) : large.contents p = small.contents p := by
  rw [contents_eq, contents_eq, resolve_same more leads stands mayMiss_default]
  cases arrived : small.resolve {} p with
  | error cause => rfl
  | ok location =>
    obtain ⟨rfl, -⟩ := resolve_arrives more.linkFree mayMiss_default leads arrived
    simp only [same, access]

theorem isFile_same (more : Extends small large) (leads : Leads p names)
    (same : kind? large names = kind? small names) : large.isFile p = small.isFile p := by
  rw [Bool.eq_iff_iff, isFile_iff, isFile_iff]
  constructor
  · rintro ⟨location, bytes, arrived, file⟩
    obtain ⟨rfl, stands⟩ := resolve_arrives more.linkFreeLarge mayMiss_default leads arrived
    rw [same] at stands file
    exact ⟨location, bytes, resolve_same more leads stands mayMiss_default ▸ arrived, file⟩
  · rintro ⟨location, bytes, arrived, file⟩
    obtain ⟨rfl, stands⟩ := resolve_arrives more.linkFree mayMiss_default leads arrived
    exact ⟨location, bytes, (resolve_same more leads stands mayMiss_default).trans arrived, same ▸ file⟩

end Same

end PackageLoader.LinkFreeDisk
