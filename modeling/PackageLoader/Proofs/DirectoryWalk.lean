import PackageLoader.Descriptor.Locate
import PackageLoader.Proofs.NormalResolution

/-! The walk of a directory. Which directories it comes through, and in which order, is told by names
alone: those that lead to a real directory through directories that can be listed, each before those that
it is a beginning of and otherwise by the first name in which they differ. What path the walk starts from
only stands in front of the names, and the order of names is the order of paths. -/
namespace PackageLoader.DirectoryWalk
open Disk LinkFreeDisk NormalResolution PathNormalForm Subdirectories TableLaws TwoPaths

/-! ## Names -/

section Walk

variable (refuses : List String → Bool)

mutual

/-- The names that lead from a node to the directories that are walked at and below it, in the order of
the walk. -/
def namesFrom (here : List String) : Node → List (List String)
  | .directory entries => [] :: if refuses here then [] else namesIn here entries
  | _ => []

/-- The names that lead to the directories that are walked among and below the entries of a
directory. -/
def namesIn (here : List String) : List (String × Node) → List (List String)
  | [] => []
  | e :: rest => namesOf here e ++ namesIn here rest

/-- The names that lead to an entry that is a directory and to those that are walked below it. -/
def namesOf (here : List String) : String × Node → List (List String)
  | (name, node) => (namesFrom (here ++ [name]) node).map (name :: ·)

end

end Walk

section Nodes

variable {refuses : List String → Bool} {here : List String} {node : Node} {entries : Entries}
  {names : List String}

theorem mem_namesIn : names ∈ namesIn refuses here entries ↔
    ∃ e ∈ entries, ∃ rest ∈ namesFrom refuses (here ++ [e.1]) e.2, e.1 :: rest = names := by
  induction entries with
  | nil => simp [namesIn]
  | cons e entries ih =>
    have own : namesOf refuses here e =
        (namesFrom refuses (here ++ [e.1]) e.2).map (e.1 :: ·) := by rw [← namesOf]
    rw [namesIn, List.mem_append, ih, own, List.mem_map]
    simp only [List.mem_cons, exists_eq_or_imp]

mutual

/-- The walk puts the names behind the path that it starts from. -/
theorem directoriesFrom_eq : (here : List String) → (p : Path) → (node : Node) →
    Node.directoriesFrom refuses here p node = (namesFrom refuses here node).map (descend p)
  | here, p, .directory entries => by
    rw [Node.directoriesFrom, namesFrom, List.map_cons, directoriesIn_eq here p entries]
    split <;> rfl
  | here, p, .file bytes => by simp [Node.directoriesFrom, namesFrom]
  | here, p, .link target => by simp [Node.directoriesFrom, namesFrom]

theorem directoriesIn_eq : (here : List String) → (p : Path) → (entries : List (String × Node)) →
    Node.directoriesIn refuses here p entries = (namesIn refuses here entries).map (descend p)
  | here, p, [] => by rw [Node.directoriesIn, namesIn, List.map_nil]
  | here, p, e :: rest => by
    rw [Node.directoriesIn, namesIn, List.map_append, directoriesOf_eq here p e,
      directoriesIn_eq here p rest]

theorem directoriesOf_eq : (here : List String) → (p : Path) → (e : String × Node) →
    Node.directoriesOf refuses here p e = (namesOf refuses here e).map (descend p)
  | here, p, (name, node) => by
    rw [Node.directoriesOf, namesOf, List.map_map,
      directoriesFrom_eq (here ++ [name]) (p.child name) node]
    rfl

end

/-- What a directory lists under a name is what stands there. -/
theorem mem_entries_iff_find (ordered : (Node.directory entries).Ordered) {name : String} :
    (name, node) ∈ entries ↔ findEntry name entries = some node := by
  cases ordered with
  | directory ascending inner => exact (get?_eq_some_iff (t := ⟨entries, ascending⟩)).symm

/-- The walk comes through the real directories that it can get to and through nothing else. -/
theorem mem_namesFrom_iff (ordered : node.Ordered) : names ∈ namesFrom refuses here node ↔
    (∃ inner, node.at? names = some (.directory inner)) ∧ Passed refuses here names := by
  induction names generalizing here node with
  | nil => cases node <;> simp [namesFrom, Node.at?, Passed]
  | cons name names ih =>
    cases node with
    | directory entries =>
      have entry (next : Node) : (name, next) ∈ entries ∧
          names ∈ namesFrom refuses (here ++ [name]) next ↔ findEntry name entries = some next ∧
            (∃ inner, next.at? names = some (.directory inner)) ∧
              Passed refuses (here ++ [name]) names := by
        rw [mem_entries_iff_find ordered]
        refine and_congr_right fun found => ih ?_
        have here : (Node.directory entries).at? [name] = some next := by simp [Node.at?, found]
        exact ordered_at ordered here
      have walked : name :: names ∈ namesFrom refuses here (.directory entries) ↔
          refuses here = false ∧
            ∃ next, (name, next) ∈ entries ∧ names ∈ namesFrom refuses (here ++ [name]) next := by
        cases refused : refuses here <;> simp [namesFrom, mem_namesIn, refused]
      simp only [walked, entry, Node.at?, Option.bind_eq_some_iff, Passed]
      constructor
      · rintro ⟨open', next, found, ⟨inner, stands⟩, passed⟩
        exact ⟨⟨inner, next, found, stands⟩, open', passed⟩
      · rintro ⟨⟨inner, next, found, stands⟩, open', passed⟩
        exact ⟨open', next, found, ⟨inner, stands⟩, passed⟩
    | _ => simp [namesFrom, Node.at?]

theorem mem_namesIn_iff (ordered : (Node.directory entries).Ordered) (open' : refuses here = false) :
    names ∈ namesIn refuses here entries ↔ names ≠ [] ∧
      (∃ inner, (Node.directory entries).at? names = some (.directory inner)) ∧
        Passed refuses here names := by
  rw [← mem_namesFrom_iff ordered, namesFrom, open', if_neg Bool.false_ne_true, List.mem_cons]
  have named : names ∈ namesIn refuses here entries → names ≠ [] := by
    rintro member rfl
    simp [mem_namesIn] at member
  constructor
  · exact fun member => ⟨named member, Or.inr member⟩
  · rintro ⟨filled, empty | member⟩
    · exact absurd empty filled
    · exact member

end Nodes

/-! ## Order -/

/-- One list of names comes before another: it is a beginning of the other, or the first name in which
they differ is the smaller one. -/
abbrev Before (a b : List String) : Prop :=
  compare a b = .lt

theorem before_nil {name : String} {names : List String} : Before [] (name :: names) :=
  List.compareLex_nil_cons

theorem compare_cons (a b : String) (as bs : List String) :
    compare (a :: as) (b :: bs) = (compare a b).then (compare as bs) :=
  List.compareLex_cons_cons

theorem before_append (names : List String) (name : String) (rest : List String) :
    Before names (names ++ name :: rest) := by
  induction names with
  | nil => exact before_nil
  | cons first names ih =>
    rw [List.cons_append, Before, compare_cons, Std.ReflOrd.compare_self]
    exact ih

section Ascending

variable {refuses : List String → Bool}

mutual

/-- Every directory comes before those below it, and otherwise they are in the order of their names. -/
theorem namesFrom_ascending : (here : List String) → (node : Node) → node.Ordered →
    (namesFrom refuses here node).Pairwise Before
  | here, .directory entries, ordered => by
    cases ordered with
    | directory ascending inner =>
      rw [namesFrom]
      refine List.pairwise_cons.mpr ⟨fun names below => ?_, ?_⟩
      · split at below
        · cases below
        · obtain ⟨e, -, rest, -, rfl⟩ := mem_namesIn.mp below
          exact before_nil
      · split
        · exact .nil
        · exact namesIn_ascending here entries ascending inner
  | here, .file bytes, ordered => by simp [namesFrom]
  | here, .link target, ordered => by simp [namesFrom]

theorem namesIn_ascending : (here : List String) → (entries : List (String × Node)) →
    entries.Pairwise KeyBefore → (∀ e ∈ entries, e.2.Ordered) →
      (namesIn refuses here entries).Pairwise Before
  | here, [], ascending, inner => by simp [namesIn]
  | here, e :: rest, ascending, inner => by
    obtain ⟨above, restAscending⟩ := List.pairwise_cons.mp ascending
    rw [namesIn]
    refine List.pairwise_append.mpr ⟨namesOf_ascending here e (inner e (List.mem_cons_self ..)),
      namesIn_ascending here rest restAscending fun e member => inner e (List.mem_cons_of_mem _ member),
      ?_⟩
    intro a own b later
    obtain ⟨name, node⟩ := e
    rw [namesOf] at own
    obtain ⟨as, -, rfl⟩ := List.mem_map.mp own
    obtain ⟨next, listed, bs, -, rfl⟩ := mem_namesIn.mp later
    have smaller : compare name next.1 = .lt := above next listed
    rw [Before, compare_cons, smaller]
    rfl

theorem namesOf_ascending : (here : List String) → (e : String × Node) → e.2.Ordered →
    (namesOf refuses here e).Pairwise Before
  | here, (name, node), ordered => by
    rw [namesOf]
    refine List.pairwise_map.mpr
      ((namesFrom_ascending (here ++ [name]) node ordered).imp fun {a b} before => ?_)
    rw [Before, compare_cons, Std.ReflOrd.compare_self]
    exact before

end

end Ascending

/-- What stands in front of both lists plays no role in their order. -/
theorem compare_append (front as bs : List Component) :
    compare (front ++ as) (front ++ bs) = compare as bs := by
  induction front with
  | nil => rfl
  | cons c front ih =>
    have step : compare (c :: (front ++ as)) (c :: (front ++ bs)) =
        (compare c c).then (compare (front ++ as) (front ++ bs)) := List.compareLex_cons_cons
    rw [List.cons_append, List.cons_append, step, Std.ReflOrd.compare_self, ih]
    rfl

theorem compare_names (as bs : List String) :
    compare (as.map Component.name) (bs.map Component.name) = compare as bs := by
  induction as generalizing bs with
  | nil => cases bs <;> rfl
  | cons a as ih =>
    cases bs with
    | nil => rfl
    | cons b bs =>
      have step : compare (Component.name a :: as.map .name) (Component.name b :: bs.map .name) =
          (compare (Component.name a) (Component.name b)).then
            (compare (as.map Component.name) (bs.map Component.name)) := List.compareLex_cons_cons
      have single : compare (Component.name a) (Component.name b) = compare a b := rfl
      rw [List.map_cons, List.map_cons, step, single, ih, compare_cons]

section Paths

variable {p : Path} {as bs : List String}

/-- Paths behind one path are ordered by the names behind it. -/
theorem compare_descend (validA : ∀ name ∈ as, IsName name) (validB : ∀ name ∈ bs, IsName name) :
    compare (descend p as) (descend p bs) = compare as bs := by
  have components : compare (descend p as) (descend p bs) =
    compare (descend p as).components (descend p bs).components := rfl
  rw [components, descend_components p validA, descend_components p validB, compare_append,
    compare_names]

/-- Different names lead to different paths. -/
theorem descend_inj (validA : ∀ name ∈ as, IsName name) (validB : ∀ name ∈ bs, IsName name) :
    descend p as = descend p bs ↔ as = bs := by
  refine ⟨fun same => ?_, fun same => same ▸ rfl⟩
  have components := congrArg Path.components same
  rw [descend_components p validA, descend_components p validB, List.append_cancel_left_eq] at components
  exact List.map_injective_iff.mpr (fun _ _ => Component.name.inj) components

theorem mem_map_descend {names : List (List String)} (valid : ∀ ns ∈ names, ∀ name ∈ ns, IsName name)
    (validA : ∀ name ∈ as, IsName name) : descend p as ∈ names.map (descend p) ↔ as ∈ names := by
  rw [List.mem_map]
  constructor
  · rintro ⟨ns, member, same⟩
    exact (descend_inj (valid ns member) validA).mp same ▸ member
  · exact fun member => ⟨as, member, rfl⟩

/-- Names in ascending order lead to paths in ascending order. -/
theorem descend_ascending {names : List (List String)}
    (valid : ∀ ns ∈ names, ∀ name ∈ ns, IsName name) (ascending : names.Pairwise Before) :
    (names.map (descend p)).Pairwise fun a b => compare a b = .lt := by
  refine List.pairwise_map.mpr (ascending.imp_of_mem fun {as bs} first second before => ?_)
  rw [compare_descend (valid as first) (valid bs second)]
  exact before

/-- A path lies at or below another one behind the same path if its names begin with those of the
other. -/
theorem descend_prefix_iff (validA : ∀ name ∈ as, IsName name) (validB : ∀ name ∈ bs, IsName name) :
    (descend p as).components <+: (descend p bs).components ↔ as <+: bs := by
  rw [descend_components p validA, descend_components p validB, List.prefix_append_right_inj]
  constructor
  · rintro ⟨rest, same⟩
    obtain ⟨front, back, rfl, first, -⟩ := List.map_eq_append_iff.mp same.symm
    exact ⟨back, by rw [List.map_injective_iff.mpr (fun _ _ => Component.name.inj) first]⟩
  · exact fun before => before.map _

end Paths

/-! ## Directories -/

/-- Everything at and below a node has a name that can stand between separators. -/
def Named (node : Node) : Prop :=
  ∀ names, (node.at? names).isSome → ∀ name ∈ names, IsName name

instance (node : Node) : Decidable (Named node) :=
  decidable_of_iff (∀ names ∈ locationsAt node, (node.at? names).isSome → ∀ name ∈ names, IsName name)
    ⟨fun named names stands => named names (mem_locationsAt stands) stands,
      fun named names _ => named names⟩

theorem named_at {node below : Node} (named : Named node) {location : List String}
    (stands : node.at? location = some below) : Named below := by
  intro names found name member
  refine named (location ++ names) ?_ name (List.mem_append_right _ member)
  rwa [at?_append, stands, Option.bind_some]

section Disks

variable {disk : Disk} {p : Path} {location : List String} {entries : Entries}

/-- The directory that a path leads to is in order and has good names on a disk that has them. -/
theorem found_proper (named : Named (.directory disk.root)) {how : Resolution}
    (whole : disk.stat how p = .ok (.directory entries)) :
    (Node.directory entries).Ordered ∧ Named (.directory entries) := by
  obtain ⟨location, -, stands⟩ := stat_eq_ok_iff.mp whole
  exact ⟨ordered_at disk.ordered stands, named_at named stands⟩

/-- The names that a directory lists can stand between separators. -/
theorem entry_name (named : Named (.directory disk.root)) {how : Resolution}
    (whole : disk.stat how p = .ok (.directory entries)) {e : String × Node} (listed : e ∈ entries) :
    IsName e.1 := by
  obtain ⟨ordered, proper⟩ := found_proper named whole
  have found := (mem_entries_iff_find ordered).mp listed
  have stands : (Node.directory entries).at? [e.1] = some e.2 := by simp [Node.at?, found]
  exact proper [e.1] (by rw [stands]; rfl) e.1 (List.mem_singleton_self _)

/-- The walk only comes through good names. -/
theorem walked_names (refuses : List String → Bool) (location : List String)
    (ordered : (Node.directory entries).Ordered) (named : Named (.directory entries)) :
    ∀ names ∈ namesFrom refuses location (.directory entries), ∀ name ∈ names, IsName name := by
  intro names walked
  obtain ⟨⟨inner, stands⟩, -⟩ := (mem_namesFrom_iff ordered).mp walked
  exact named names (by rw [stands]; rfl)

theorem stat_of_opened (opens : disk.opened p = .ok (location, entries)) :
    disk.stat {} p = .ok (.directory entries) := by
  obtain ⟨leads, stands, -⟩ := opened_eq_ok_iff.mp opens
  exact stat_eq_ok_iff.mpr ⟨location, leads, stands⟩

theorem listing_eq_ok_iff {listed : List Path} : disk.listing p = .ok listed ↔
    ∃ location entries, disk.opened p = .ok (location, entries) ∧
      listed = entries.map fun e => p.child e.1 := by
  unfold Disk.listing
  cases disk.opened p with
  | error cause => simp [bind, Except.bind]
  | ok found =>
    obtain ⟨location, entries⟩ := found
    simp [bind, Except.bind, pure, Except.pure, eq_comm]

/-- A real directory that can be listed is opened with what stands in it. -/
theorem opened_real {listed : List Path} (readable : disk.listing p = .ok listed)
    (real : disk.stat { followLast := false } p = .ok (.directory entries)) :
    ∃ location, disk.opened p = .ok (location, entries) := by
  obtain ⟨location, entries', opens, -⟩ := listing_eq_ok_iff.mp readable
  refine ⟨location, ?_⟩
  rcases stat_unfollowed (stat_of_opened opens) with directory | ⟨target, link⟩
  · rw [directory] at real
    cases real
    exact opens
  · rw [link] at real
    cases real

theorem directoriesBelow_names (opens : disk.opened p = .ok (location, entries)) :
    disk.directoriesBelow p = (namesIn disk.refuses location entries).map (descend p) := by
  rw [directoriesBelow, opens]
  exact directoriesIn_eq location p entries

/-- A real directory is walked with what is below it. -/
theorem directories_real (opens : disk.opened p = .ok (location, entries))
    (real : disk.stat { followLast := false } p = .ok (.directory entries)) :
    disk.directories p =
      (namesFrom disk.refuses location (.directory entries)).map (descend p) := by
  obtain ⟨-, -, open'⟩ := opened_eq_ok_iff.mp opens
  rw [directories, real, directoriesBelow_names opens, namesFrom, open', if_neg Bool.false_ne_true]
  rfl

/-- Of a link to a directory, what is below it is walked. -/
theorem directories_linked (opens : disk.opened p = .ok (location, entries)) {target : String}
    (link : disk.stat { followLast := false } p = .ok (.link target)) :
    disk.directories p = (namesIn disk.refuses location entries).map (descend p) := by
  rw [directories, link, directoriesBelow_names opens]

/-- On the way to what is found there are directories. -/
theorem stat_front {front rest : List String} {node : Node} (filled : p.text.toList ≠ [])
    (valid : ∀ name ∈ front ++ rest, IsName name) (further : rest ≠ [])
    (found : disk.stat {} (descend p (front ++ rest)) = .ok node) :
    ∃ inner, disk.stat {} (descend p front) = .ok (.directory inner) := by
  induction rest using List.reverseRecOn generalizing node with
  | nil => exact absurd rfl further
  | append_singleton rest name ih =>
    rw [← List.append_assoc] at valid found
    have before : ∀ name ∈ front ++ rest, IsName name := fun n member =>
      valid n (List.mem_append_left _ member)
    rw [descend_concat] at found
    obtain ⟨inner, above⟩ := stat_above_child (descend_steps filled before).1
      (valid name (List.mem_append_right _ (List.mem_singleton_self _))) found
    by_cases last : rest = []
    · subst last
      rw [List.append_nil] at above
      exact ⟨inner, above⟩
    · exact ih before last above

/-- The walk gets to what can be found if the directories on the way can be listed. -/
theorem passed_iff_passable {names : List String} {inner : Entries} {node : Node}
    (leads : disk.resolve {} p = .ok location)
    (stands : disk.node? location = some (.directory entries)) (valid : ∀ name ∈ names, IsName name)
    (real : (Node.directory entries).at? names = some (.directory inner))
    (found : disk.stat {} (descend p names) = .ok node) :
    Passed disk.refuses location names ↔ Passable disk p names := by
  refine ⟨fun passed front before apart => ?_, passed_of_passable leads stands valid real⟩
  have open' := passed_iff.mp passed front before apart
  obtain ⟨rest, rfl⟩ := before
  have further : rest ≠ [] := by
    rintro rfl
    exact apart (List.append_nil _).symm
  obtain ⟨entries', above⟩ := stat_front (resolve_walks leads).1 valid further found
  obtain ⟨place, leads', stands'⟩ := stat_eq_ok_iff.mp above
  obtain ⟨node', first, below⟩ := Option.bind_eq_some_iff.mp (at?_append _ _ _ ▸ real)
  obtain ⟨middle, rfl⟩ : ∃ middle, node' = .directory middle := by
    cases node' with
    | directory middle => exact ⟨middle, rfl⟩
    | _ => cases rest <;> first | exact absurd rfl further | cases below
  obtain rfl := resolve_descend leads stands
    (fun name member => valid name (List.mem_append_left _ member)) first leads'
  exact listing_isOk.mpr ⟨_, _, opened_eq_ok_iff.mpr ⟨leads', stands', open'⟩⟩

/-- The names among the given ones that lead from a path to a directory with a descriptor. -/
def holding (disk : Disk) (p : Path) (names : List (List String)) : List (List String) :=
  names.filter fun ns => (disk.descriptorIn (descend p ns)).isSome

theorem mem_holding {names : List (List String)} {ns : List String} : ns ∈ holding disk p names ↔
    ns ∈ names ∧ (disk.descriptorIn (descend p ns)).isSome = true :=
  List.mem_filter

/-- A directory that can be listed is searched for modules along the walk. -/
theorem moduleDirs_walked {names : List (List String)}
    (opens : disk.opened p = .ok (location, entries))
    (walked : disk.directories p = names.map (descend p)) :
    disk.moduleDirs p = .ok ((holding disk p names).map (descend p)) := by
  have listed := listing_eq_ok_iff.mpr ⟨location, entries, opens, rfl⟩
  rw [moduleDirs, listed, walked, List.filter_map]
  rfl

theorem descriptorIn_isSome (dir : Path) : (disk.descriptorIn dir).isSome = true ↔
    ∃ name ∈ descriptorNames, disk.isFile (dir.child name) = true := by
  simp [descriptorIn, List.find?_isSome]

end Disks

/-! ## Modules -/

/-- In an ascending list, what is smaller stands further in front. -/
theorem pair_sublist_of_ascending {paths : List Path}
    (ascending : paths.Pairwise fun a b => compare a b = .lt) {a b : Path} (first : a ∈ paths)
    (second : b ∈ paths) (smaller : compare a b = .lt) : [a, b].Sublist paths := by
  obtain ⟨front, back, rfl⟩ := List.append_of_mem first
  obtain ⟨-, behind, apart⟩ := List.pairwise_append.mp ascending
  have notGreater : compare b a ≠ .lt := by
    rw [Std.OrientedCmp.gt_iff_lt.mpr smaller]
    decide
  rcases List.mem_append.mp second with before | after
  · exact absurd (apart b before a (List.mem_cons_self ..)) notGreater
  · rcases List.mem_cons.mp after with rfl | later
    · exact absurd smaller notGreater
    · exact (List.cons_sublist_cons.mpr (List.singleton_sublist.mpr later)).trans
        (List.sublist_append_right _ _)

theorem isName_descriptor : ∀ {name : String}, name ∈ descriptorNames → IsName name := by
  decide

/-- A directory with a descriptor is found. -/
theorem stat_of_holding {disk : Disk} {d : Path} (filled : d.text.toList ≠ [])
    (held : ∃ name ∈ descriptorNames, disk.isFile (d.child name) = true) :
    ∃ node, disk.stat {} d = .ok node := by
  obtain ⟨name, listed, file⟩ := held
  obtain ⟨bytes, found⟩ := isFile_iff_stat.mp file
  obtain ⟨entries, above⟩ := stat_above_child filled (isName_descriptor listed) found
  exact ⟨_, above⟩

/-- The walk of a directory comes to what has a descriptor and lies below directories that can be
listed. -/
theorem mem_holding_names_iff {disk : Disk} {root d : Path} {location : List String} {entries : Entries}
    (opens : disk.opened root = .ok (location, entries)) (ordered : (Node.directory entries).Ordered)
    (proper : Named (.directory entries)) :
    d ∈ (holding disk root (namesFrom disk.refuses location (.directory entries))).map (descend root) ↔
      (∃ names inner, d = descend root names ∧
        (Node.directory entries).at? names = some (.directory inner) ∧ Passable disk root names) ∧
      ∃ name ∈ descriptorNames, disk.isFile (d.child name) = true := by
  obtain ⟨leads, stands, -⟩ := opened_eq_ok_iff.mp opens
  have reached {ns : List String} {inner : Entries}
      (real : (Node.directory entries).at? ns = some (.directory inner))
      (held : ∃ name ∈ descriptorNames, disk.isFile ((descend root ns).child name) = true) :
      Passed disk.refuses location ns ↔ Passable disk root ns := by
    have names := proper ns (by rw [real]; rfl)
    obtain ⟨node, there⟩ := stat_of_holding (descend_steps (resolve_walks leads).1 names).1 held
    exact passed_iff_passable leads stands names real there
  rw [List.mem_map]
  constructor
  · rintro ⟨ns, member, rfl⟩
    obtain ⟨walked, described⟩ := mem_holding.mp member
    obtain ⟨⟨inner, real⟩, passed⟩ := (mem_namesFrom_iff ordered).mp walked
    have held := (descriptorIn_isSome _).mp described
    exact ⟨⟨ns, inner, rfl, real, (reached real held).mp passed⟩, held⟩
  · rintro ⟨⟨ns, inner, rfl, real, passable⟩, held⟩
    have walked := (mem_namesFrom_iff ordered).mpr ⟨⟨inner, real⟩, (reached real held).mpr passable⟩
    exact ⟨ns, mem_holding.mpr ⟨walked, (descriptorIn_isSome _).mpr held⟩, rfl⟩

/-- From a real directory that can be listed, exactly those real directories at and below it are found
that have a descriptor and that lie below directories that can be listed themselves, each once and by
ascending path, so that each stands in front of those below it. Nothing is found at or below a link. -/
theorem moduleDirs_finds_real {disk : Disk} (named : Named (.directory disk.root)) {root : Path}
    {listed : List Path} {entries : Entries} (readable : disk.listing root = .ok listed)
    (real : disk.stat { followLast := false } root = .ok (.directory entries)) :
    ∃ dirs, disk.moduleDirs root = .ok dirs ∧
      (∀ d, d ∈ dirs ↔ (∃ names inner, d = descend root names ∧
          (Node.directory entries).at? names = some (.directory inner) ∧ Passable disk root names) ∧
        ∃ name ∈ descriptorNames, disk.isFile (d.child name) = true) ∧
      dirs.Nodup ∧ dirs.Pairwise (fun a b => compare a b = .lt) ∧
      (∀ a ∈ dirs, ∀ b ∈ dirs, a ≠ b → a.components <+: b.components → [a, b].Sublist dirs) ∧
      ∀ names target, (Node.directory entries).at? names = some (.link target) →
        ∀ d ∈ dirs, ¬ (descend root names).components <+: d.components := by
  obtain ⟨location, opens⟩ := opened_real readable real
  obtain ⟨ordered, proper⟩ := found_proper named (stat_of_opened opens)
  have valid := walked_names disk.refuses location ordered proper
  have found := moduleDirs_walked opens (directories_real opens real)
  have kept {ns : List String}
      (member : ns ∈ holding disk root (namesFrom disk.refuses location (.directory entries))) :
      ∀ name ∈ ns, IsName name := valid ns (mem_holding.mp member).1
  have ascending := descend_ascending (p := root) (fun _ member => kept member)
    ((namesFrom_ascending location (.directory entries) ordered).filter _)
  have once : ((holding disk root
      (namesFrom disk.refuses location (.directory entries))).map (descend root)).Nodup := by
    refine ascending.imp fun {a b} smaller same => ?_
    rw [same, Std.ReflOrd.compare_self] at smaller
    cases smaller
  refine ⟨_, found, fun d => mem_holding_names_iff opens ordered proper, once, ascending,
    fun a first b second other above => ?_, fun names target link d member below => ?_⟩
  · refine pair_sublist_of_ascending ascending first second ?_
    obtain ⟨as, memberA, rfl⟩ := List.mem_map.mp first
    obtain ⟨bs, memberB, rfl⟩ := List.mem_map.mp second
    obtain ⟨rest, rfl⟩ := (descend_prefix_iff (kept memberA) (kept memberB)).mp above
    rw [compare_descend (kept memberA) (kept memberB)]
    cases rest with
    | nil => exact absurd (by rw [List.append_nil]) other
    | cons name rest => exact before_append as name rest
  · obtain ⟨ns, held, rfl⟩ := List.mem_map.mp member
    obtain ⟨⟨inner, stands⟩, -⟩ := (mem_namesFrom_iff ordered).mp (mem_holding.mp held).1
    have linkNames := proper names (by rw [link]; rfl)
    obtain ⟨rest, rfl⟩ := (descend_prefix_iff linkNames (kept held)).mp below
    -- No names lead on from a link.
    rw [at?_append, link, Option.bind_some] at stands
    cases rest <;> cases stands

/-- A root with a module of its own, a directory with another one below it, a link next to each, a
directory in place of a descriptor, and a module below a directory that cannot be listed. -/
def walkedDisk : Disk where
  root := [("w", .directory [
    ("a", .directory [
      ("b", .directory [("gno.mod", .file [])]),
      ("gno.mod", .link "../gno.mod"),
      ("up", .link "..")]),
    ("a-b", .directory [("gnomod.toml", .file [])]),
    ("c", .directory [("gno.mod", .directory [])]),
    ("d", .link "a"),
    ("e", .directory [
      ("f", .directory [("gno.mod", .file [])]),
      ("gno.mod", .file [])]),
    ("gno.mod", .file [])])]
  ordered := by decide
  workingDir := []
  refuses := fun location => location == ["w", "e"]

theorem walkedDisk_moduleDirs : walkedDisk.moduleDirs ⟨"/w"⟩ =
    .ok [⟨"/w"⟩, ⟨"/w/a"⟩, ⟨"/w/a/b"⟩, ⟨"/w/a-b"⟩, ⟨"/w/e"⟩] := by
  rfl

/-- Both links lead to modules and are passed over, although one of them leads back up. Of the directory
that cannot be listed only its own module is found. -/
theorem moduleDirs_finds_walked : ∃ listed entries dirs, Named (.directory walkedDisk.root) ∧
    walkedDisk.listing ⟨"/w"⟩ = .ok listed ∧
    walkedDisk.stat { followLast := false } ⟨"/w"⟩ = .ok (.directory entries) ∧
    walkedDisk.moduleDirs ⟨"/w"⟩ = .ok dirs ∧
    dirs = [⟨"/w"⟩, ⟨"/w/a"⟩, ⟨"/w/a/b"⟩, ⟨"/w/a-b"⟩, ⟨"/w/e"⟩] ∧
    dirs.Pairwise (fun a b => compare a b = .lt) ∧
    ∀ d ∈ dirs, ¬ (Path.mk "/w/a/up").components <+: d.components := by
  have named : Named (.directory walkedDisk.root) := by decide +kernel
  obtain ⟨listed, readable⟩ : ∃ listed, walkedDisk.listing ⟨"/w"⟩ = .ok listed := ⟨_, rfl⟩
  obtain ⟨entries, real, linked⟩ : ∃ entries,
      walkedDisk.stat { followLast := false } ⟨"/w"⟩ = .ok (.directory entries) ∧
      (Node.directory entries).at? ["a", "up"] = some (.link "..") := ⟨_, rfl, rfl⟩
  obtain ⟨dirs, found, -, -, ascending, -, apart⟩ := moduleDirs_finds_real named readable real
  exact ⟨listed, entries, dirs, named, readable, real, found,
    Except.ok.inj (found.symm.trans walkedDisk_moduleDirs), ascending, apart ["a", "up"] ".." linked⟩

/-- Not every real directory with a descriptor is found: the walk never gets to one that lies below a
directory which cannot be listed, although its descriptor can be found. -/
theorem moduleDirs_misses_directory : ¬ ∀ (disk : Disk) (root : Path) (listed : List Path)
    (entries : Entries), Named (.directory disk.root) → disk.listing root = .ok listed →
      disk.stat { followLast := false } root = .ok (.directory entries) →
      ∃ dirs, disk.moduleDirs root = .ok dirs ∧
        ∀ d, d ∈ dirs ↔ (∃ names inner, d = descend root names ∧
            (Node.directory entries).at? names = some (.directory inner)) ∧
          ∃ name ∈ descriptorNames, disk.isFile (d.child name) = true := by
  intro complete
  obtain ⟨dirs, found, exactly⟩ := complete walkedDisk ⟨"/w"⟩ _ _ (by decide +kernel) rfl rfl
  have below : ⟨"/w/e/f"⟩ ∈ dirs :=
    (exactly _).mpr ⟨⟨["e", "f"], _, by decide +kernel, rfl⟩, "gno.mod", by decide, by decide +kernel⟩
  rw [Except.ok.inj (found.symm.trans walkedDisk_moduleDirs)] at below
  exact absurd below (by decide)

end PackageLoader.DirectoryWalk
