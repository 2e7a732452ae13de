import PackageLoader.Proofs.DirectoryWalk
import PackageLoader.Proofs.TwoPaths

/-! Roots that are links. What is found below a directory is found behind a link to it, as far as the
system's limits for paths and links allow. The directory itself is not: the walk meets the link in its
place, so a module that the root holds is found behind the directory and is missing behind the link. -/
namespace PackageLoader.LinkedRoots
open Disk DirectoryWalk LinkFreeDisk PathNormalForm Subdirectories TwoPaths

/-! ## Numbers of links -/

section Walks

variable {disk : Disk} {how : Resolution}

/-- Walks that hand links over to alike walks are alike, unless too many links are met. -/
theorem walkAlong_enough {follow follow' : Following}
    (enough : ∀ target here rest, follow target here rest = .error .linkLoop ∨
      follow' target here rest = follow target here rest) (here steps : List String) :
    disk.walkAlong how follow here steps = .error .linkLoop ∨
      disk.walkAlong how follow' here steps = disk.walkAlong how follow here steps := by
  fun_induction disk.walkAlong how follow here steps with
  | case7 here step rest entries directory noCurrent noParent narrow target link goesOn =>
    refine (enough target here rest).imp id fun same => ?_
    rw [walkAlong]
    simp only [directory, noCurrent, noParent, narrow, link, goesOn, ↓reduceIte]
    exact same
  | _ => simp only [walkAlong, *, ↓reduceIte, or_true, reduceCtorEq]

/-- One link more that may be followed changes nothing, unless there were too few. -/
theorem walk_succ (links : Nat) (here steps : List String) :
    disk.walk how links here steps = .error .linkLoop ∨
      disk.walk how (links + 1) here steps = disk.walk how links here steps := by
  induction links generalizing here steps with
  | zero => exact walkAlong_enough (fun _ _ _ => Or.inl rfl) here steps
  | succ links ih =>
    refine walkAlong_enough (fun target here rest => ?_) here steps
    by_cases empty : target.isEmpty
    · simp [empty]
    · simpa [empty] using ih _ _

theorem walk_add (links more : Nat) (here steps : List String) :
    disk.walk how links here steps = .error .linkLoop ∨
      disk.walk how (links + more) here steps = disk.walk how links here steps := by
  induction more with
  | zero => exact Or.inr rfl
  | succ more ih =>
    rcases ih with exhausted | same
    · exact Or.inl exhausted
    · exact same ▸ walk_succ (links + more) here steps

/-- Two walks that both have enough links are the same. -/
theorem walk_alike {links links' : Nat} {here steps : List String}
    (enough : disk.walk how links here steps ≠ .error .linkLoop)
    (enough' : disk.walk how links' here steps ≠ .error .linkLoop) :
    disk.walk how links here steps = disk.walk how links' here steps := by
  rcases Nat.le_total links links' with le | le
  · obtain ⟨more, rfl⟩ := Nat.exists_eq_add_of_le le
    exact ((walk_add links more here steps).resolve_left enough).symm
  · obtain ⟨more, rfl⟩ := Nat.exists_eq_add_of_le le
    exact (walk_add links' more here steps).resolve_left enough'

end Walks

/-! ## Links to directories -/

/-- The system refuses a path because it is too long or leads through too many links. -/
def Exceeds (disk : Disk) (p : Path) : Prop :=
  disk.resolve {} p = .error .nameTooLong ∨ disk.resolve {} p = .error .linkLoop

instance (disk : Disk) (p : Path) : Decidable (Exceeds disk p) :=
  inferInstanceAs (Decidable (_ ∨ _))

/-- One path is a link to the directory that the other path leads to and that can be listed. -/
structure LinksTo (disk : Disk) (s t : Path) (location : List String) (entries : Entries) : Prop where
  readable : disk.opened t = .ok (location, entries)
  real : disk.stat { followLast := false } t = .ok (.directory entries)
  link : ∃ target, disk.stat { followLast := false } s = .ok (.link target)
  meet : disk.resolve {} s = disk.resolve {} t

/-- The system's limits refuse a descriptor behind both paths or behind none of them. -/
def LimitedAlike (disk : Disk) (s t : Path) (names : List String) : Prop :=
  ∀ name ∈ descriptorNames,
    (Exceeds disk (descend s (names ++ [name])) ↔ Exceeds disk (descend t (names ++ [name])))

instance (disk : Disk) (s t : Path) (names : List String) : Decidable (LimitedAlike disk s t names) :=
  inferInstanceAs (Decidable (∀ name ∈ descriptorNames, _))

/-- A path that begins with one path, with another path in its place. -/
def respell (t s d : Path) : Path :=
  match d.below? t with
  | some cs => cs.foldl (fun p c => p.child c.text) s
  | none => d

section Links

variable {disk : Disk} {s t : Path} {location : List String} {entries : Entries} {names : List String}

/-- What stands behind the one path is spelled behind the other. -/
theorem respell_descend (valid : ∀ name ∈ names, IsName name) :
    respell t s (descend t names) = descend s names := by
  simp only [respell, descend_below? t valid, List.foldl_map]
  rfl

theorem respell_all {all : List (List String)} (valid : ∀ ns ∈ all, ∀ name ∈ ns, IsName name) :
    (all.map (descend t)).map (respell t s) = all.map (descend s) := by
  rw [List.map_map]
  exact List.map_congr_left fun ns member => respell_descend (valid ns member)

theorem isFile_of_exceeds {p : Path} (exceeds : Exceeds disk p) : disk.isFile p = false := by
  unfold isFile stat
  rcases exceeds with long | loop
  · rw [long]
    rfl
  · rw [loop]
    rfl

/-- Names behind two paths of one place lead alike, unless the system's limits refuse one of them. -/
theorem resolve_behind_alike {place : List String} (first : disk.resolve {} s = .ok place)
    (second : disk.resolve {} t = .ok place) (valid : ∀ name ∈ names, IsName name)
    (further : names ≠ []) (within : ¬ Exceeds disk (descend s names))
    (within' : ¬ Exceeds disk (descend t names)) :
    disk.resolve {} (descend s names) = disk.resolve {} (descend t names) := by
  obtain ⟨links, walks⟩ := resolve_behind first valid further
  obtain ⟨links', walks'⟩ := resolve_behind second valid further
  unfold Exceeds at within within'
  rw [walks] at within ⊢
  rw [walks'] at within' ⊢
  split
  · rfl
  rename_i spelled
  rw [if_neg spelled] at within within'
  have short : Short (descend s names) := by
    by_contra long
    exact within (Or.inl (if_neg long))
  have short' : Short (descend t names) := by
    by_contra long
    exact within' (Or.inl (if_neg long))
  rw [if_pos short] at within ⊢
  rw [if_pos short'] at within' ⊢
  exact walk_alike (fun loop => within (Or.inr loop)) fun loop => within' (Or.inr loop)

/-- Behind the link and behind the directory the same files are found. -/
theorem isFile_alike (links : LinksTo disk s t location entries) (valid : ∀ name ∈ names, IsName name)
    (further : names ≠ [])
    (limits : Exceeds disk (descend s names) ↔ Exceeds disk (descend t names)) :
    disk.isFile (descend s names) = disk.isFile (descend t names) := by
  by_cases exceeds : Exceeds disk (descend t names)
  · rw [isFile_of_exceeds exceeds, isFile_of_exceeds (limits.mpr exceeds)]
  · obtain ⟨leads, -⟩ := opened_eq_ok_iff.mp links.readable
    have same := resolve_behind_alike (links.meet.trans leads) leads valid further
      (fun refused => exceeds (limits.mp refused)) exceeds
    unfold isFile stat
    rw [same]

/-- A directory has a descriptor behind the link if it has one. -/
theorem descriptor_alike (links : LinksTo disk s t location entries) (valid : ∀ name ∈ names, IsName name)
    (limits : LimitedAlike disk s t names) :
    (disk.descriptorIn (descend s names)).isSome = (disk.descriptorIn (descend t names)).isSome := by
  have same : ∀ name ∈ descriptorNames,
      disk.isFile ((descend s names).child name) = disk.isFile ((descend t names).child name) := by
    intro name known
    have plain : ∀ name ∈ descriptorNames, IsName name := by decide
    rw [← descend_concat, ← descend_concat]
    exact isFile_alike links (names_concat valid (plain name known)) (by simp) (limits name known)
  rw [Bool.eq_iff_iff, descriptorIn_isSome, descriptorIn_isSome]
  exact exists_congr fun name => and_congr_right fun known => by rw [same name known]

/-- Behind the link and behind the directory, the same directories below hold modules. -/
theorem holding_alike (links : LinksTo disk s t location entries) {all : List (List String)}
    (valid : ∀ ns ∈ all, ∀ name ∈ ns, IsName name) (limits : ∀ ns ∈ all, LimitedAlike disk s t ns) :
    holding disk s all = holding disk t all :=
  List.filter_congr fun ns member => descriptor_alike links (valid ns member) (limits ns member)

/-- What is found behind the link is what is found below the directory. -/
theorem moduleDirs_link (links : LinksTo disk s t location entries) :
    disk.moduleDirs s =
      .ok ((holding disk s (namesIn disk.refuses location entries)).map (descend s)) := by
  obtain ⟨target, link⟩ := links.link
  have opens : disk.opened s = .ok (location, entries) := by
    unfold opened
    rw [links.meet]
    exact links.readable
  exact moduleDirs_walked opens (directories_linked opens link)

/-- In the directory the root comes first, if it holds a module, and then what is found below it. -/
theorem moduleDirs_real (links : LinksTo disk s t location entries) : disk.moduleDirs t =
    .ok ((if (disk.descriptorIn t).isSome then [t] else []) ++
      (holding disk t (namesIn disk.refuses location entries)).map (descend t)) := by
  have root : descend t [] = t := rfl
  obtain ⟨-, -, open'⟩ := opened_eq_ok_iff.mp links.readable
  rw [moduleDirs_walked links.readable (directories_real links.readable links.real), namesFrom, open',
    if_neg Bool.false_ne_true, holding, List.filter_cons, root]
  split <;> rfl

end Links

/-! ## Modules -/

/-- No names below a directory lead back to it. -/
theorem root_notMem {p : Path} {all : List (List String)} (valid : ∀ ns ∈ all, ∀ name ∈ ns, IsName name)
    (filled : [] ∉ all) : p ∉ all.map (descend p) := fun member =>
  filled ((mem_map_descend (p := p) valid (by simp)).mp member)

/-- Behind a link to a directory the directory itself is never found. What lies below it is found as it
is below the directory, as far as the system's limits do not tell the two paths apart. If they nowhere
do where the walk comes through, the link finds the modules of the directory without the one at the root,
and so finds all of them exactly if the root holds none. -/
theorem moduleDirs_link_without_root {disk : Disk} (named : Named (.directory disk.root)) {s t : Path}
    {location : List String} {entries : Entries} (links : LinksTo disk s t location entries) :
    ∃ dirs dirs', disk.moduleDirs s = .ok dirs ∧ disk.moduleDirs t = .ok dirs' ∧
      s ∉ dirs ∧ (t ∈ dirs' ↔ (disk.descriptorIn t).isSome) ∧
      (∀ names, names ≠ [] → (∀ name ∈ names, IsName name) → LimitedAlike disk s t names →
        (descend s names ∈ dirs ↔ descend t names ∈ dirs')) ∧
      ((∀ names ∈ namesIn disk.refuses location entries, LimitedAlike disk s t names) →
        dirs = (dirs'.filter (· ≠ t)).map (respell t s) ∧
        (dirs = dirs'.map (respell t s) ↔ disk.descriptorIn t = none)) := by
  obtain ⟨ordered, proper⟩ := found_proper named (stat_of_opened links.readable)
  obtain ⟨-, -, open'⟩ := opened_eq_ok_iff.mp links.readable
  have behind := moduleDirs_link links
  have found := moduleDirs_real links
  have below : ∀ ns ∈ namesIn disk.refuses location entries, ns ≠ [] ∧ ∀ name ∈ ns, IsName name := by
    intro ns member
    obtain ⟨filled, ⟨inner, stands⟩, -⟩ := (mem_namesIn_iff ordered open').mp member
    exact ⟨filled, proper ns (by rw [stands]; rfl)⟩
  generalize namesIn disk.refuses location entries = all at behind found below ⊢
  have valid : ∀ ns ∈ all, ∀ name ∈ ns, IsName name := fun ns member => (below ns member).2
  have kept (p : Path) : ∀ ns ∈ holding disk p all, ∀ name ∈ ns, IsName name :=
    fun ns member => valid ns (mem_holding.mp member).1
  have apart (p : Path) : p ∉ (holding disk p all).map (descend p) :=
    root_notMem (kept p) fun member => (below [] (mem_holding.mp member).1).1 rfl
  refine ⟨_, _, behind, found, apart s, ?_, fun names further good limits => ?_, fun limits => ?_⟩
  · cases held : disk.descriptorIn t with
    | none => simpa using apart t
    | some file => simp
  · have other : descend t names ≠ descend t [] := fun same =>
      further ((descend_inj good (by simp)).mp same)
    have notRoot : descend t names ∉ if (disk.descriptorIn t).isSome then [t] else [] := by
      split
      · exact fun member => other (List.mem_singleton.mp member)
      · exact List.not_mem_nil
    rw [List.mem_append, mem_map_descend (kept s) good, mem_map_descend (kept t) good, mem_holding,
      mem_holding, descriptor_alike links good limits]
    simp only [notRoot, false_or]
  · have others : ∀ d ∈ (holding disk t all).map (descend t), decide (d ≠ t) = true :=
      fun d member => decide_eq_true fun same => apart t (same ▸ member)
    rw [holding_alike links valid limits, List.filter_append, List.filter_eq_self.mpr others,
      List.map_append, List.map_append, respell_all (kept t)]
    cases held : disk.descriptorIn t with
    | none => simp
    | some file => simp

/-- A directory with a module at its root and another one below, and a link to it. -/
def linkedDisk : Disk where
  root := [
    ("s", .link "t"),
    ("t", .directory [("a", .directory [("gno.mod", .file [])]), ("gno.mod", .file [])])]
  ordered := by decide
  workingDir := []

/-- The module of the directory vanishes behind the link, and the one below it does not. -/
theorem linkedDisk_without_root : ∃ location entries dirs dirs',
    LinksTo linkedDisk ⟨"/s"⟩ ⟨"/t"⟩ location entries ∧
    linkedDisk.moduleDirs ⟨"/s"⟩ = .ok dirs ∧ linkedDisk.moduleDirs ⟨"/t"⟩ = .ok dirs' ∧
    dirs' = [⟨"/t"⟩, ⟨"/t/a"⟩] ∧ dirs = (dirs'.filter (· ≠ ⟨"/t"⟩)).map (respell ⟨"/t"⟩ ⟨"/s"⟩) ∧
    ⟨"/s"⟩ ∉ dirs ∧ dirs ≠ dirs'.map (respell ⟨"/t"⟩ ⟨"/s"⟩) := by
  obtain ⟨location, entries, links, alike⟩ : ∃ location entries,
      LinksTo linkedDisk ⟨"/s"⟩ ⟨"/t"⟩ location entries ∧
      ∀ names ∈ namesIn linkedDisk.refuses location entries,
        LimitedAlike linkedDisk ⟨"/s"⟩ ⟨"/t"⟩ names :=
    ⟨_, _, ⟨rfl, rfl, ⟨_, rfl⟩, rfl⟩, by decide +kernel⟩
  have named : Named (.directory linkedDisk.root) := by decide +kernel
  obtain ⟨dirs, dirs', behind, found, missing, -, -, respelled⟩ :=
    moduleDirs_link_without_root named links
  obtain ⟨others, all⟩ := respelled alike
  have both : linkedDisk.moduleDirs ⟨"/t"⟩ =
    .ok [⟨"/t"⟩, ⟨"/t/a"⟩] := by decide +kernel
  have descriptor : linkedDisk.descriptorIn ⟨"/t"⟩ = some ⟨"/t/gno.mod"⟩ := by decide +kernel
  refine ⟨location, entries, dirs, dirs', links, behind, found, Except.ok.inj (found.symm.trans both), others,
    missing, fun same => ?_⟩
  rw [all.mp same] at descriptor
  cases descriptor

/-- A link is not walked like the directory that it leads to, since the walk takes a link as its
starting point for what it is. -/
theorem moduleDirs_link_differs : ¬ ∀ (disk : Disk) (s t : Path) (location : List String)
    (entries : Entries), Named (.directory disk.root) → LinksTo disk s t location entries →
      disk.moduleDirs s = (disk.moduleDirs t).map (List.map (respell t s)) := by
  intro alike
  have same := alike linkedDisk ⟨"/s"⟩ ⟨"/t"⟩ _ _ (by decide +kernel) ⟨rfl, rfl, ⟨_, rfl⟩, rfl⟩
  have behind : linkedDisk.moduleDirs ⟨"/s"⟩ = .ok [⟨"/s/a"⟩] := by decide +kernel
  have respelled : (linkedDisk.moduleDirs ⟨"/t"⟩).map (List.map (respell ⟨"/t"⟩ ⟨"/s"⟩)) =
    .ok [⟨"/s"⟩, ⟨"/s/a"⟩] := by decide +kernel
  rw [behind, respelled] at same
  exact absurd same (by decide)

end PackageLoader.LinkedRoots
