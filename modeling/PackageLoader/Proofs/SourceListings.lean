import PackageLoader.Package.Sources
import PackageLoader.Proofs.DirectoryWalk
import PackageLoader.Proofs.OverlayListings

/-! The source files of a directory with an overlay in front. They are those that are listed below the
overlay and the overlaid ones that are not, each once and in order. Where nothing can be listed below,
that is a failure unless the directory is only missing and holds overlaid files. -/
namespace PackageLoader.SourceListings
open DirectoryWalk Disk OverlayListings PathNormalForm PathParents PathSpellings Subdirectories
open OverlayOnDisk (sortPaths_perm)

/-! ## Listings -/

/-- Every directory is listed in order, and no path is listed twice. -/
def ListsAscending (base : FileSystem) : Prop :=
  ∀ dir entries, base.listing dir = .ok entries → Ascending entries

/-- A disk lists its directories in order of the names of their entries. -/
theorem disk_listsAscending {disk : Disk} (named : Named (.directory disk.root)) :
    ListsAscending disk.fileSystem := by
  intro dir listed lists
  obtain ⟨location, entries, opens, rfl⟩ := listing_eq_ok_iff.mp lists
  have whole := stat_of_opened opens
  obtain ⟨ordered, -⟩ := found_proper named whole
  cases ordered with
  | directory ascending inner =>
    refine List.pairwise_map.mpr (ascending.imp_of_mem fun {a b} first second before => ?_)
    have name {e : String × Node} (listed : e ∈ entries) : ∀ name ∈ [e.1], IsName name := by
      simpa using entry_name named whole listed
    have order := compare_descend (p := dir) (name first) (name second)
    rw [compare_cons, before] at order
    exact order

section Listings

variable {base : FileSystem} {overlay : Overlay} {dir : Path} {paths : List Path}

/-- What a directory lists below the overlay; one that cannot be listed lists nothing. -/
def entriesBelow (base : FileSystem) (dir : Path) : List Path :=
  (base.listing dir).toOption.getD []

/-- What a directory of a disk lists are the paths of its entries. -/
theorem mem_entriesBelow_disk {disk : Disk} {p : Path} : p ∈ entriesBelow disk.fileSystem dir ↔
    ∃ location entries, disk.opened dir = .ok (location, entries) ∧
      ∃ e ∈ entries, dir.child e.1 = p := by
  unfold entriesBelow
  cases lists : disk.fileSystem.listing dir with
  | error cause =>
    constructor
    · intro member
      cases member
    · rintro ⟨location, entries, opens, -⟩
      have listed : disk.fileSystem.listing dir = .ok _ :=
        listing_eq_ok_iff.mpr ⟨location, entries, opens, rfl⟩
      cases lists.symm.trans listed
  | ok listed =>
    obtain ⟨location, entries, opens, rfl⟩ := listing_eq_ok_iff.mp lists
    simp [Except.toOption, opens]

/-- What is listed are the entries below and the overlaid files that are not among them. -/
theorem listing_perm (lists : (overlay.inFrontOf base).listing dir = .ok paths) :
    paths.Perm (entriesBelow base dir ++ added overlay dir (entriesBelow base dir)) := by
  unfold entriesBelow
  cases below : base.listing dir with
  | ok entries =>
    rw [listing_of_listed below, Except.ok.injEq] at lists
    exact lists ▸ sortPaths_perm _
  | error cause =>
    by_cases missing : cause = .notFound
    · subst missing
      rw [listing_of_missing below] at lists
      split at lists
      · cases lists
      · cases lists
        simp [Except.toOption]
    · rw [listing_of_failed below missing] at lists
      cases lists

theorem mem_listing_iff (lists : (overlay.inFrontOf base).listing dir = .ok paths) {p : Path} :
    p ∈ paths ↔ p ∈ entriesBelow base dir ∨
      p ∈ overlay.keys ∧ LiesIn dir p ∧ ¬ Held (entriesBelow base dir) p := by
  rw [(listing_perm lists).mem_iff, List.mem_append, mem_added]

theorem listing_ascending (sorted : ListsAscending base)
    (lists : (overlay.inFrontOf base).listing dir = .ok paths) : Ascending paths := by
  cases below : base.listing dir with
  | ok entries =>
    rw [listing_of_listed below, Except.ok.injEq] at lists
    subst lists
    refine sortPaths_ascending (List.pairwise_append.mpr
      ⟨(sorted dir entries below).apart, (added_ascending ..).apart, ?_⟩)
    intro own first other second same
    exact (mem_added.mp second).2.2 ⟨own, first, same⟩
  | error cause =>
    by_cases missing : cause = .notFound
    · subst missing
      rw [listing_of_missing below] at lists
      split at lists
      · cases lists
      · cases lists
        exact entriesOf_ascending ..
    · rw [listing_of_failed below missing] at lists
      cases lists

end Listings

/-! ## Source files -/

/-- The path is named like a source file and is no directory. -/
def IsSource (base : FileSystem) (file : Path) : Prop :=
  file.fileName?.any isSourceFile = true ∧ base.isDir file = false

theorem packageFiles_eq_error_iff {fs : FileSystem} {dir : Path} {cause : StorageError} :
    fs.packageFiles dir = .error cause ↔ fs.listing dir = .error cause := by
  unfold FileSystem.packageFiles
  cases fs.listing dir <;> simp [Except.map]

theorem packageFiles_eq_ok_iff {fs : FileSystem} {dir : Path} {files : List Path} :
    fs.packageFiles dir = .ok files ↔ ∃ paths, fs.listing dir = .ok paths ∧
      files = paths.filter fun file => file.fileName?.any isSourceFile && !fs.isDir file := by
  unfold FileSystem.packageFiles
  cases fs.listing dir <;> simp [Except.map, eq_comm]

section Sources

variable {base : FileSystem} {overlay : Overlay} {dir : Path} {files : List Path}

theorem mem_packageFiles_iff (lists : (overlay.inFrontOf base).packageFiles dir = .ok files)
    {file : Path} : file ∈ files ↔ (file ∈ entriesBelow base dir ∨
      file ∈ overlay.keys ∧ LiesIn dir file ∧ ¬ Held (entriesBelow base dir) file) ∧
      IsSource base file := by
  obtain ⟨paths, listed, rfl⟩ := packageFiles_eq_ok_iff.mp lists
  rw [List.mem_filter, mem_listing_iff listed, Bool.and_eq_true, Bool.not_eq_true']
  rfl

theorem packageFiles_ascending (sorted : ListsAscending base)
    (lists : (overlay.inFrontOf base).packageFiles dir = .ok files) : Ascending files := by
  obtain ⟨paths, listed, rfl⟩ := packageFiles_eq_ok_iff.mp lists
  exact (listing_ascending sorted listed).filter _

theorem fileName?_congr {p q : Path} (same : p.components = q.components) :
    p.fileName? = q.fileName? := by
  rw [Path.fileName?, Path.fileName?, same]

end Sources

end PackageLoader.SourceListings
