import PackageLoader.Proofs.PatternRuns
import PackageLoader.Proofs.Subdirectories

/-! Two things end a query: a pattern whose directory cannot be listed, and a descriptor of no use in
the tree of a `file=` pattern. Both are told from the disk and the patterns alone. Nothing else does,
whatever is broken in the library, among the examples, in sources or under other patterns. -/
namespace PackageLoader.FatalFaults
open LinkFreeDisk PatternRuns PathNormalForm Subdirectories Text

/-! ## Descriptors -/

/-- The text of a file. -/
def textOf (disk : Disk) (file : Path) : Except StorageError String := do
  let bytes ← disk.contents file
  match decodeUtf8? bytes with
  | some text => .ok text
  | none => .error .notUtf8

/-- The descriptor of a directory and how its text is read: `gnomod.toml` is preferred. -/
inductive Describes (disk : Disk) (dir : Path) :
    Path → (String → Except DescriptorError Descriptor) → Prop where
  | fields (present : disk.isFile (dir.child "gnomod.toml") = true) :
      Describes disk dir (dir.child "gnomod.toml") readFields
  | directives (absent : disk.isFile (dir.child "gnomod.toml") = false)
      (present : disk.isFile (dir.child "gno.mod") = true) :
      Describes disk dir (dir.child "gno.mod") readDirectives

/-- A directory holds a module, and its descriptor has no text or is refused. -/
inductive Spoilt (disk : Disk) (dir : Path) : ModuleError → Prop where
  | unreadable {file : Path} {read : String → Except DescriptorError Descriptor}
      {cause : StorageError} (describes : Describes disk dir file read)
      (fails : textOf disk file = .error cause) : Spoilt disk dir (.unreadable file cause)
  | refused {file : Path} {read : String → Except DescriptorError Descriptor} {text : String}
      {error : DescriptorError} (describes : Describes disk dir file read)
      (reads : textOf disk file = .ok text) (fails : read text = .error error) :
      Spoilt disk dir (.refused file error)

section Reading

variable {disk : Disk} {dir file : Path} {cause : ModuleError}

theorem describes_descriptorIn {read : String → Except DescriptorError Descriptor}
    (describes : Describes disk dir file read) : disk.descriptorIn dir = some file := by
  unfold Disk.descriptorIn descriptorNames
  cases describes with
  | fields present => simp [present]
  | directives absent present => simp [absent, present]

theorem exists_describes (found : disk.descriptorIn dir = some file) :
    ∃ read, Describes disk dir file read := by
  unfold Disk.descriptorIn descriptorNames at found
  cases preferred : disk.isFile (dir.child "gnomod.toml") with
  | true =>
    obtain rfl : dir.child "gnomod.toml" = file := by simpa [preferred] using found
    exact ⟨readFields, .fields preferred⟩
  | false =>
    obtain ⟨present, rfl⟩ : disk.isFile (dir.child "gno.mod") = true ∧ dir.child "gno.mod" = file := by
      simpa [preferred] using found
    exact ⟨readDirectives, .directives preferred present⟩

theorem describes_isFile {read : String → Except DescriptorError Descriptor}
    (describes : Describes disk dir file read) : disk.isFile file = true := by
  cases describes with
  | fields present => exact present
  | directives _ present => exact present

/-- The extension of a descriptor tells its reader. -/
theorem describes_reader {read : String → Except DescriptorError Descriptor}
    (describes : Describes disk dir file read) :
    (if file.extension? = some "toml" then readFields else readDirectives) = read := by
  cases describes with
  | fields =>
    rw [child_extension? dir (by decide)]
    exact if_pos (by decide)
  | directives =>
    rw [child_extension? dir (by decide)]
    exact if_neg (by decide)

theorem isFile_exists (present : disk.isFile file = true) : disk.exists? file = true := by
  obtain ⟨bytes, stands⟩ := isFile_iff_stat.mp present
  rw [Disk.exists?, stands]
  rfl

theorem readDescriptor_eq {read : String → Except DescriptorError Descriptor}
    (describes : Describes disk dir file read) : disk.readDescriptor file =
      match textOf disk file with
      | .error cause => .error (.unreadable file cause)
      | .ok text => (read text).mapError (.refused file) := by
  have present := isFile_exists (describes_isFile describes)
  unfold Disk.readDescriptor textOf
  rw [present, if_neg (by decide)]
  cases disk.contents file with
  | error cause => rfl
  | ok bytes =>
    cases decoded : decodeUtf8? bytes with
    | none => simp only [decoded, bind, Except.bind]
    | some text =>
      simp only [decoded, bind, Except.bind, ← describes_reader describes]
      split <;> rfl

/-- Reading the module of a directory that holds one fails exactly if its descriptor is of no use. -/
theorem moduleOf_error_iff (holds : (disk.descriptorIn dir).isSome = true) :
    disk.moduleOf dir = .error cause ↔ Spoilt disk dir cause := by
  obtain ⟨file, found⟩ := Option.isSome_iff_exists.mp holds
  obtain ⟨read, describes⟩ := exists_describes found
  have moduleOf : disk.moduleOf dir = (disk.readDescriptor file).map (file, ·) := by
    unfold Disk.moduleOf
    rw [found]
  rw [moduleOf, readDescriptor_eq describes]
  constructor
  · intro fails
    cases reads : textOf disk file with
    | error unread =>
      rw [reads] at fails
      cases fails
      exact .unreadable describes reads
    | ok text =>
      cases refused : read text with
      | error error =>
        simp only [reads, refused] at fails
        cases fails
        exact .refused describes reads refused
      | ok d =>
        simp only [reads, refused] at fails
        cases fails
  · intro spoilt
    cases spoilt with
    | unreadable other fails =>
      obtain rfl := Option.some.inj (found.symm.trans (describes_descriptorIn other))
      rw [fails]
      rfl
    | refused other reads fails =>
      obtain rfl := Option.some.inj (found.symm.trans (describes_descriptorIn other))
      obtain rfl := (describes_reader describes).symm.trans (describes_reader other)
      rw [reads]
      exact congrArg (Except.map _ ∘ Except.mapError _) fails

theorem spoilt_holds (spoilt : Spoilt disk dir cause) : (disk.descriptorIn dir).isSome = true := by
  cases spoilt with
  | unreadable describes => simp [describes_descriptorIn describes]
  | refused describes => simp [describes_descriptorIn describes]

end Reading

/-! ## Patterns -/

/-- What ends a query at a pattern. A directory pattern has to be listable. The tree of a `file=`
pattern has to be as well, and no descriptor in it may be of no use; the first one is reported. -/
inductive Refused (disk : Disk) (settings : Settings) (raw : String) : LoadError → Prop where
  | directory {dir : Path} {cause : StorageError}
      (read : Pattern.read raw settings.workingDir = .dir dir)
      (unlistable : disk.listing dir = .error cause) :
      Refused disk settings raw (.pattern raw (.unlistable dir cause))
  | file {file tree : Path} {cause : StorageError}
      (read : Pattern.read raw settings.workingDir = .file file)
      (above : file.parent?.getD settings.workingDir = tree)
      (unlistable : disk.listing tree = .error cause) :
      Refused disk settings raw (.pattern raw (.unlistable tree cause))
  | descriptor {file tree dir : Path} {entries before after : List Path} {cause : ModuleError}
      (read : Pattern.read raw settings.workingDir = .file file)
      (above : file.parent?.getD settings.workingDir = tree)
      (listed : disk.listing tree = .ok entries)
      (walk : disk.directories tree = before ++ dir :: after)
      (sound : ∀ earlier ∈ before, ∀ other, ¬ Spoilt disk earlier other)
      (spoilt : Spoilt disk dir cause) : Refused disk settings raw (.descriptor dir cause)

section Patterns

variable {disk : Disk} {settings : Settings} {overlay : Overlay} {patterns : List String}
  {raw : String} {e : LoadError}

theorem moduleFault?_iff {dir : Path} (holds : (disk.descriptorIn dir).isSome = true) :
    moduleFault? disk .file dir = some e ↔
      ∃ cause, Spoilt disk dir cause ∧ LoadError.descriptor dir cause = e := by
  simp only [← moduleOf_error_iff holds]
  unfold moduleFault?
  cases disk.moduleOf dir <;> simp

/-- What is passed over by a filter is passed over by a search. -/
theorem findSome?_filter (keeps : α → Bool) (f : α → Option β) (items : List α) :
    (items.filter keeps).findSome? f = items.findSome? fun a => if keeps a then f a else none := by
  induction items with
  | nil => rfl
  | cons a rest ih =>
    cases kept : keeps a with
    | true => simp only [List.filter_cons_of_pos kept, List.findSome?_cons, kept, ↓reduceIte, ih]
    | false =>
      have passed := List.filter_cons_of_neg (l := rest) (ne_true_of_eq_false kept)
      simp only [passed, List.findSome?_cons, kept, Bool.false_eq_true, ↓reduceIte, ih]

/-- The descriptor that is reported for a listed tree is the first of no use. -/
theorem firstFault_iff {tree : Path} :
    ((disk.directories tree).filter fun dir => (disk.descriptorIn dir).isSome).findSome?
        (moduleFault? disk .file) = some e ↔
      ∃ before dir after cause, disk.directories tree = before ++ dir :: after ∧
        (∀ earlier ∈ before, ∀ other, ¬ Spoilt disk earlier other) ∧ Spoilt disk dir cause ∧
          LoadError.descriptor dir cause = e := by
  have fault (dir : Path) (e : LoadError) :
      (if (disk.descriptorIn dir).isSome then moduleFault? disk .file dir else none) = some e ↔
        ∃ cause, Spoilt disk dir cause ∧ LoadError.descriptor dir cause = e := by
    by_cases holds : (disk.descriptorIn dir).isSome = true
    · rw [if_pos holds]
      exact moduleFault?_iff holds
    · rw [if_neg holds]
      constructor
      · intro none
        cases none
      · rintro ⟨cause, spoilt, -⟩
        exact absurd (spoilt_holds spoilt) holds
  have faultless (dir : Path) :
      (if (disk.descriptorIn dir).isSome then moduleFault? disk .file dir else none) = none ↔
        ∀ other, ¬ Spoilt disk dir other := by
    rw [Option.eq_none_iff_forall_ne_some]
    simp only [ne_eq, fault]
    exact ⟨fun none other spoilt => none _ ⟨other, spoilt, rfl⟩,
      fun none e ⟨other, spoilt, _⟩ => none other spoilt⟩
  rw [findSome?_filter, List.findSome?_eq_some_iff]
  simp only [fault, faultless]
  constructor
  · rintro ⟨before, dir, after, walk, ⟨cause, spoilt, same⟩, sound⟩
    exact ⟨before, dir, after, cause, walk, sound, spoilt, same⟩
  · rintro ⟨before, dir, after, cause, walk, sound, spoilt, same⟩
    exact ⟨before, dir, after, walk, ⟨cause, spoilt, same⟩, sound⟩

/-- A pattern is at fault exactly if something is there that ends the query. -/
theorem patternFault?_iff : patternFault? disk settings raw = some e ↔
    Refused disk settings raw e := by
  constructor
  · intro fault
    unfold patternFault? at fault
    cases read : Pattern.read raw settings.workingDir with
    | builtin =>
      simp only [read] at fault
      cases fault
    | dir dir =>
      simp only [read] at fault
      unfold treeFault? Disk.moduleDirs at fault
      cases listed : disk.listing dir with
      | error cause =>
        simp only [listed] at fault
        cases fault
        exact .directory read listed
      | ok entries =>
        simp only [listed] at fault
        obtain ⟨d, -, spoilt⟩ := List.exists_of_findSome?_eq_some fault
        rw [moduleFault?_none (by decide)] at spoilt
        cases spoilt
    | file file =>
      simp only [read] at fault
      unfold treeFault? Disk.moduleDirs at fault
      cases listed : disk.listing (file.parent?.getD settings.workingDir) with
      | error cause =>
        simp only [listed] at fault
        cases fault
        exact .file read rfl listed
      | ok entries =>
        simp only [listed] at fault
        obtain ⟨before, d, after, cause, walk, sound, spoilt, rfl⟩ := firstFault_iff.mp fault
        exact .descriptor read rfl listed walk sound spoilt
  · intro refused
    unfold patternFault?
    cases refused with
    | directory read unlistable =>
      simp [read, treeFault?, Disk.moduleDirs, unlistable]
    | file read above unlistable =>
      simp [read, above, treeFault?, Disk.moduleDirs, unlistable]
    | descriptor read above listed walk sound spoilt =>
      simp only [read, above, treeFault?, Disk.moduleDirs, listed]
      exact firstFault_iff.mpr ⟨_, _, _, _, walk, sound, spoilt, rfl⟩

theorem patternFault?_none_iff : patternFault? disk settings raw = none ↔
    ∀ e, ¬ Refused disk settings raw e := by
  rw [Option.eq_none_iff_forall_ne_some]
  simp only [ne_eq, patternFault?_iff]

/-- A query fails exactly at its first pattern with something that ends it, whatever the overlay, and
succeeds if there is none. -/
theorem load_fails_iff : (∀ e, load disk settings overlay patterns = .error e ↔
      ∃ before raw after, patterns = before ++ raw :: after ∧
        (∀ earlier ∈ before, ∀ other, ¬ Refused disk settings earlier other) ∧
          Refused disk settings raw e) ∧
    ((∃ r, load disk settings overlay patterns = .ok r) ↔
      ∀ raw ∈ patterns, ∀ e, ¬ Refused disk settings raw e) := by
  constructor
  · intro e
    rw [load_eq, settle_eq_error_iff, List.findSome?_eq_some_iff]
    simp only [patternFault?_iff, patternFault?_none_iff]
    exact exists₃_congr fun before raw after => and_congr_right fun _ => and_comm
  · simp only [load_eq_ok_iff, patternFault?_none_iff, exists_and_left, exists_eq', and_true]

end Patterns

end PackageLoader.FatalFaults
