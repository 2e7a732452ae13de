import Mathlib.Data.List.DropRight
import PackageLoader.Proofs.PathSpellings
import PackageLoader.Query.Pattern

/-! Which directory a pattern names. Three dots in the place of the last component stand for nothing.
Two kinds of texts are read differently: three dots at the end of a longer component are taken off it,
and where only separators stand in front of the dots, the separators are taken off as well, so that
the working directory is walked in place of the root. -/
namespace PackageLoader.DirectoryPatterns
open PathNormalForm PathSpellings Subdirectories

/-! ## Endings -/

/-- The last component of a text is three dots. -/
def EndsInDots (raw : String) : Prop :=
  raw.toList = "...".toList ∨ "/...".toList <:+ raw.toList

/-- The last component of a text ends in three dots behind something else. -/
def MerelyDotted (raw : String) : Prop :=
  "...".toList <:+ raw.toList ∧ ¬ EndsInDots raw

/-- What stands in front of three dots at the end. -/
def front (raw : String) : List Char :=
  raw.toList.take (raw.toList.length - 3)

/-- Three dots right below the root. -/
def RootDots (raw : String) : Prop :=
  "/...".toList <:+ raw.toList ∧ (front raw).all (· = '/') = true

instance (raw : String) : Decidable (EndsInDots raw) := inferInstanceAs (Decidable (_ ∨ _))

instance (raw : String) : Decidable (MerelyDotted raw) := inferInstanceAs (Decidable (_ ∧ _))

instance (raw : String) : Decidable (RootDots raw) := inferInstanceAs (Decidable (_ ∧ _))

/-- The directory that a pattern asks for: the working directory joined with the text, without the
dots that stand for the directory itself and without three dots in the last place. -/
def asked (workingDir : Path) (raw : String) : Path :=
  let components := (workingDir.join ⟨raw⟩).components.filter (· ≠ .current)
  .ofComponents (if EndsInDots raw then components.dropLast else components)

/-! ## Separators at the end -/

section Separators

variable {cs : List Char}

theorem withoutSlashes_eq (cs : List Char) :
    Pattern.withoutSlashes cs = cs.rdropWhile (· = '/') := rfl

theorem withoutSlashes_pieces (cs : List Char) : pieces (Pattern.withoutSlashes cs) = pieces cs := by
  induction cs using List.reverseRecOn with
  | nil => rfl
  | append_singleton cs c ih =>
    rw [withoutSlashes_eq]
    by_cases separator : c = '/'
    · subst separator
      rw [List.rdropWhile_concat_pos _ _ _ (by simp), ← withoutSlashes_eq, ih, pieces_separator_last]
    · rw [List.rdropWhile_concat_neg _ _ _ (by simpa using separator)]

/-- Unless nothing is left, the text starts as before. -/
theorem withoutSlashes_head? (filled : Pattern.withoutSlashes cs ≠ []) :
    (Pattern.withoutSlashes cs).head? = cs.head? := by
  obtain ⟨slashes, same⟩ : Pattern.withoutSlashes cs <+: cs := List.rdropWhile_prefix _ _
  conv_rhs => rw [← same, List.head?_append_of_ne_nil _ filled]

theorem withoutSlashes_inside (inside : cs.getLast? ≠ some '/') : Pattern.withoutSlashes cs = cs := by
  rw [withoutSlashes_eq, List.rdropWhile_eq_self_iff]
  intro filled
  simpa [List.getLast?_eq_some_getLast filled] using inside

theorem withoutSlashes_eq_nil_iff :
    Pattern.withoutSlashes cs = [] ↔ cs.all (· = '/') = true := by
  rw [withoutSlashes_eq, List.rdropWhile_eq_nil_iff, List.all_eq_true]

end Separators

/-! ## Dots at the end -/

section Dots

variable {raw : String}

/-- A text that ends in three dots comes in two parts. -/
theorem dotted_parts (dotted : "...".toList <:+ raw.toList) :
    raw.toList = front raw ++ "...".toList := by
  obtain ⟨before, parts⟩ := dotted
  have own : front raw = before := by
    rw [front, ← parts]
    exact List.take_left' (by simp)
  rw [own, parts]

theorem endsInDots_dotted (ends : EndsInDots raw) : "...".toList <:+ raw.toList := by
  rcases ends with same | slashed
  · exact same ▸ List.suffix_rfl
  · exact (show "...".toList <:+ "/...".toList from ⟨['/'], rfl⟩).trans slashed

/-- Three dots are a component of their own at the front of a text and behind a separator. -/
theorem endsInDots_iff (dotted : "...".toList <:+ raw.toList) :
    EndsInDots raw ↔ front raw = [] ∨ (front raw).getLast? = some '/' := by
  have parts := dotted_parts dotted
  have slashed : "/...".toList = ['/'] ++ "...".toList := rfl
  unfold EndsInDots
  rw [List.getLast?_eq_some_iff, slashed]
  refine or_congr ?_ ?_
  · rw [parts, List.append_left_eq_self]
  · constructor
    · rintro ⟨before, same⟩
      rw [parts, ← List.append_assoc] at same
      exact ⟨before, (List.append_cancel_right same).symm⟩
    · rintro ⟨before, same⟩
      exact ⟨before, by rw [parts, same, List.append_assoc]⟩

theorem rootDots_ends (root : RootDots raw) : EndsInDots raw := Or.inr root.1

/-- Unless there is nothing in front of the dots, they are right below the root if only separators
are. -/
theorem rootDots_iff (ends : EndsInDots raw) :
    RootDots raw ↔ front raw ≠ [] ∧ Pattern.withoutSlashes (front raw) = [] := by
  have parts := dotted_parts (endsInDots_dotted ends)
  rw [withoutSlashes_eq_nil_iff]
  constructor
  · rintro ⟨slashed, only⟩
    refine ⟨fun empty => ?_, only⟩
    have long := slashed.length_le
    rw [parts, empty] at long
    exact absurd long (by decide)
  · rintro ⟨filled, only⟩
    refine ⟨ends.resolve_left fun same => filled ?_, only⟩
    rw [parts, List.append_left_eq_self] at same
    exact same

/-- Dots of their own are the last piece. -/
theorem pieces_ends (ends : EndsInDots raw) : pieces raw.toList = pieces (front raw) ++ ["..."] := by
  have alone : pieces "...".toList = ["..."] := pieces_single (by decide) (by decide)
  have dotted := endsInDots_dotted ends
  rw [dotted_parts dotted]
  rcases (endsInDots_iff dotted).mp ends with empty | slashed
  · rw [empty, List.nil_append, alone]
    rfl
  · obtain ⟨before, same⟩ := List.getLast?_eq_some_iff.mp slashed
    rw [same, List.append_assoc, List.singleton_append, pieces_append, pieces_separator_last, alone]

theorem directoryText_dotted (dotted : "...".toList <:+ raw.toList) :
    Pattern.directoryText raw.toList = Pattern.withoutSlashes (front raw) :=
  if_pos (List.isSuffixOf_iff_suffix.mpr dotted)

theorem directoryText_plain (plain : ¬ "...".toList <:+ raw.toList) :
    Pattern.directoryText raw.toList = raw.toList :=
  if_neg fun dotted => plain (List.isSuffixOf_iff_suffix.mp dotted)

end Dots

/-! ## What is read -/

section Reading

variable {workingDir : Path} {raw : String}

/-- A pattern that asks neither for the builtin package nor for a file names a directory. -/
theorem read_dir (other : raw ≠ builtinPath) (unmarked : ¬ "file=".toList <+: raw.toList) :
    Pattern.read raw workingDir =
      .dir (workingDir.absolutize ⟨String.ofList (Pattern.directoryText raw.toList)⟩) := by
  have unread : "file=".toList.isPrefixOf raw.toList = false :=
    Bool.eq_false_iff.mpr fun marked => unmarked (List.isPrefixOf_iff_prefix.mp marked)
  unfold Pattern.read
  simp only [unread, other]
  rfl

theorem asked_components (absolute : workingDir.isAbsolute = true) :
    (workingDir.join ⟨raw⟩).components.filter (· ≠ .current) =
      origin workingDir raw.toList ++ (pieces raw.toList).filterMap meaning? := by
  have spelled : raw = String.ofList raw.toList := String.ofList_toList.symm
  rw [components_filter (join_isAbsolute absolute _)]
  conv_lhs => rw [spelled]
  exact join_components absolute raw.toList

theorem asked_literal (literal : ¬ EndsInDots raw) :
    asked workingDir raw = workingDir.absolutize ⟨raw⟩ := by
  simp only [asked, if_neg literal, Path.absolutize]

/-- Three dots of their own stand for nothing. -/
theorem asked_dots (absolute : workingDir.isAbsolute = true) (ends : EndsInDots raw) :
    asked workingDir raw =
      .ofComponents (origin workingDir raw.toList ++ (pieces (front raw)).filterMap meaning?) := by
  have dots : meaning? "..." = some (.name "...") := by decide
  simp only [asked, if_pos ends, asked_components absolute]
  rw [pieces_ends ends, List.filterMap_append, ← List.append_assoc]
  simp [dots]

theorem origin_eq {cs ds : List Char} (same : cs.head? = ds.head?) :
    origin workingDir cs = origin workingDir ds := by
  rw [origin, same, origin]

/-- Dots of their own are taken off with the separators, and nothing else is, unless the path of the
root is taken off. -/
theorem absolutize_ends (absolute : workingDir.isAbsolute = true) (ends : EndsInDots raw)
    (below : ¬ RootDots raw) :
    workingDir.absolutize ⟨String.ofList (Pattern.withoutSlashes (front raw))⟩ =
      asked workingDir raw := by
  have parts := dotted_parts (endsInDots_dotted ends)
  rw [absolutize_eq_origin absolute, asked_dots absolute ends, withoutSlashes_pieces]
  congr 2
  by_cases empty : front raw = []
  · rw [parts, empty]
    rfl
  · have filled : Pattern.withoutSlashes (front raw) ≠ [] := fun emptied =>
      below ((rootDots_iff ends).mpr ⟨empty, emptied⟩)
    refine origin_eq ?_
    rw [withoutSlashes_head? filled, parts, List.head?_append_of_ne_nil _ empty]

/-- In place of the root, the working directory is read. -/
theorem absolutize_root (absolute : workingDir.isAbsolute = true) (root : RootDots raw) :
    workingDir.absolutize ⟨String.ofList (Pattern.withoutSlashes (front raw))⟩ =
        .ofComponents workingDir.components ∧
      asked workingDir raw = .ofComponents [.root] := by
  have ends := rootDots_ends root
  obtain ⟨filled, emptied⟩ := (rootDots_iff ends).mp root
  have nothing : pieces (front raw) = [] := by
    rw [← withoutSlashes_pieces, emptied]
    rfl
  constructor
  · rw [emptied, absolutize_eq_origin absolute]
    simp [origin, pieces, segmentsFrom_nil, underway]
  · obtain ⟨c, rest, parts⟩ := List.exists_cons_of_ne_nil filled
    have separator : c = '/' := by simpa using List.all_eq_true.mp root.2 c (by simp [parts])
    rw [asked_dots absolute ends, nothing, dotted_parts (endsInDots_dotted ends), parts, separator]
    rfl

/-- A longer component keeps what stands in front of its dots. -/
theorem merely_front (merely : MerelyDotted raw) :
    front raw ≠ [] ∧ Pattern.withoutSlashes (front raw) = front raw := by
  have ends := (not_congr (endsInDots_iff merely.1)).mp merely.2
  exact ⟨fun empty => ends (Or.inl empty), withoutSlashes_inside fun slashed => ends (Or.inr slashed)⟩

/-- A piece is only read as a name if it is this name. -/
theorem eq_of_meaning? {segment name : String} (means : meaning? segment = some (.name name)) :
    segment = name := by
  unfold meaning? Path.innerStep at means
  split at means
  · cases means
  · split at means
    · cases means
    · simpa using means

/-- A piece of at least three characters is a name. -/
theorem meaning?_long {segment : String} (long : 3 ≤ segment.toList.length) :
    meaning? segment = some (.name segment) := by
  have current : segment ≠ "." := by
    rintro rfl
    exact absurd long (by decide)
  have parent : segment ≠ ".." := by
    rintro rfl
    exact absurd long (by decide)
  simp [meaning?, Path.innerStep, current, parent]

/-- Without its dots, a longer component is another one. -/
theorem absolutize_shortened (absolute : workingDir.isAbsolute = true) (merely : MerelyDotted raw) :
    workingDir.absolutize ⟨String.ofList (front raw)⟩ ≠ asked workingDir raw := by
  obtain ⟨filled, -⟩ := merely_front merely
  have inside : (front raw).getLast? ≠ some '/' := fun slashed =>
    merely.2 ((endsInDots_iff merely.1).mpr (Or.inr slashed))
  obtain ⟨before, segment, rest, further⟩ := pieces_extend filled inside
  have parts := dotted_parts merely.1
  have short : pieces (front raw) = before ++ [String.ofList segment] := by
    simpa using further [] (by simp)
  have long : pieces raw.toList = before ++ [String.ofList (segment ++ "...".toList)] := by
    rw [parts]
    exact further _ (by decide)
  have started : origin workingDir raw.toList = origin workingDir (front raw) :=
    origin_eq (by rw [parts, List.head?_append_of_ne_nil _ filled])
  intro same
  rw [asked_literal merely.2, Path.absolutize, Path.absolutize,
    components_filter (join_isAbsolute absolute _), components_filter (join_isAbsolute absolute _)]
    at same
  have components := ofComponents_inj (join_isAbsolute absolute _) (join_isAbsolute absolute _) same
  rw [join_components absolute, ← components_filter (join_isAbsolute absolute ⟨raw⟩),
    asked_components absolute, started, List.append_cancel_left_eq, short, long,
    List.filterMap_append, List.filterMap_append, List.append_cancel_left_eq] at components
  have named : Component.name (String.ofList (segment ++ "...".toList)) ∈
      [String.ofList segment].filterMap meaning? := by
    rw [components]
    exact List.mem_filterMap.mpr ⟨_, List.mem_singleton_self _, meaning?_long (by simp)⟩
  obtain ⟨piece, only, means⟩ := List.mem_filterMap.mp named
  rw [List.mem_singleton.mp only] at means
  have longer := congrArg (fun s => s.toList.length) (eq_of_meaning? means)
  simp at longer

/-- Outside of dots below the root, the text that is read starts where the pattern does. -/
theorem directoryText_rooted (rooted : raw.toList.head? = some '/') (below : ¬ RootDots raw) :
    (Pattern.directoryText raw.toList).head? = some '/' := by
  by_cases dotted : "...".toList <:+ raw.toList
  · have parts := dotted_parts dotted
    have filled : front raw ≠ [] := by
      intro empty
      rw [parts, empty] at rooted
      exact absurd rooted (by decide)
    have left : Pattern.withoutSlashes (front raw) ≠ [] := by
      by_cases ends : EndsInDots raw
      · exact fun emptied => below ((rootDots_iff ends).mpr ⟨filled, emptied⟩)
      · rw [(merely_front ⟨dotted, ends⟩).2]
        exact filled
    rw [directoryText_dotted dotted, withoutSlashes_head? left, ← rooted]
    conv_rhs => rw [parts, List.head?_append_of_ne_nil _ filled]
  · rw [directoryText_plain dotted, rooted]

theorem read_rootDots (absolute : workingDir.isAbsolute = true) (other : raw ≠ builtinPath)
    (unmarked : ¬ "file=".toList <+: raw.toList) (root : RootDots raw) :
    Pattern.read raw workingDir = .dir (.ofComponents workingDir.components) := by
  rw [read_dir other unmarked, directoryText_dotted (endsInDots_dotted (rootDots_ends root)),
    (absolutize_root absolute root).1]

theorem read_merelyDotted (other : raw ≠ builtinPath) (unmarked : ¬ "file=".toList <+: raw.toList)
    (merely : MerelyDotted raw) :
    Pattern.read raw workingDir = .dir (workingDir.absolutize ⟨String.ofList (front raw)⟩) := by
  rw [read_dir other unmarked, directoryText_dotted merely.1, (merely_front merely).2]

/-- All other texts are read as they are meant. -/
theorem read_asked (absolute : workingDir.isAbsolute = true) (other : raw ≠ builtinPath)
    (unmarked : ¬ "file=".toList <+: raw.toList) (whole : ¬ MerelyDotted raw)
    (below : ¬ RootDots raw) : Pattern.read raw workingDir = .dir (asked workingDir raw) := by
  rw [read_dir other unmarked]
  by_cases dotted : "...".toList <:+ raw.toList
  · have ends : EndsInDots raw := by_contra fun literal => whole ⟨dotted, literal⟩
    rw [directoryText_dotted dotted, absolutize_ends absolute ends below]
  · have literal : ¬ EndsInDots raw := fun ends => dotted (endsInDots_dotted ends)
    rw [directoryText_plain dotted, String.ofList_toList, asked_literal literal]

/-- Which directory a pattern names: the one that it asks for, unless its last component merely ends in
three dots, which it then loses, or only separators stand in front of the dots, where the working
directory is read. A pattern that starts at the root is read alike everywhere apart from this last
case. -/
theorem read_names_directory (absolute : workingDir.isAbsolute = true) (other : raw ≠ builtinPath)
    (unmarked : ¬ "file=".toList <+: raw.toList) :
    (Pattern.read raw workingDir = .dir (asked workingDir raw) ↔
      ¬ MerelyDotted raw ∧ (RootDots raw → workingDir.components = [.root])) ∧
    (MerelyDotted raw → Pattern.read raw workingDir =
      .dir (workingDir.absolutize ⟨String.ofList (front raw)⟩)) ∧
    (RootDots raw → Pattern.read raw workingDir = .dir (.ofComponents workingDir.components)) ∧
    (raw.toList.head? = some '/' →
      ((∀ v : Path, v.isAbsolute = true → Pattern.read raw v = Pattern.read raw workingDir) ↔
        ¬ RootDots raw)) := by
  have root {v : Path} (absolute : v.isAbsolute = true) := read_rootDots absolute other unmarked
  refine ⟨⟨fun read => ⟨fun merely => ?_, fun below => ?_⟩, fun both => ?_⟩,
    read_merelyDotted other unmarked, root absolute,
    fun rooted => ⟨fun alike below => ?_, fun apart v absoluteV => ?_⟩⟩
  · rw [read_merelyDotted other unmarked merely] at read
    exact absolutize_shortened absolute merely (Pattern.dir.inj read)
  · rw [root absolute below, (absolutize_root absolute below).2] at read
    have slash : Path.components ⟨"/"⟩ = [.root] := by decide +kernel
    rw [← slash] at read ⊢
    exact ofComponents_inj absolute (by decide) (Pattern.dir.inj read)
  · obtain ⟨whole, alone⟩ := both
    by_cases below : RootDots raw
    · rw [root absolute below, (absolutize_root absolute below).2, alone below]
    · exact read_asked absolute other unmarked whole below
  · -- Two working directories are read as themselves.
    have first := alike ⟨"/"⟩ (by decide)
    have second := alike ⟨"/a"⟩ (by decide)
    rw [← first, root (by decide) below, root (by decide) below] at second
    exact absurd (Pattern.dir.inj second) (by decide +kernel)
  · have start := directoryText_rooted rooted apart
    rw [read_dir other unmarked, read_dir other unmarked, absolutize_eq_origin absolute,
      absolutize_eq_origin absoluteV, origin, origin, if_pos start, if_pos start]

end Reading

/-- A directory below the working directory, with the dots and without them. -/
theorem read_names_below :
    Path.isAbsolute ⟨"/work"⟩ = true ∧ "./a//..." ≠ builtinPath ∧
    ¬ "file=".toList <+: "./a//...".toList ∧
    Pattern.read "./a//..." ⟨"/work"⟩ = .dir (asked ⟨"/work"⟩ "./a//...") ∧
    asked ⟨"/work"⟩ "./a//..." = ⟨"/work/a"⟩ ∧ asked ⟨"/work"⟩ "./a" = ⟨"/work/a"⟩ := by
  have absolute : Path.isAbsolute ⟨"/work"⟩ = true := by decide
  have other : "./a//..." ≠ builtinPath := by decide
  have unmarked : ¬ "file=".toList <+: "./a//...".toList := by decide
  exact ⟨absolute, other, unmarked,
    (read_names_directory absolute other unmarked).1.mpr ⟨by decide +kernel, by decide +kernel⟩,
    by decide +kernel, by decide +kernel⟩

/-- Dots right below the root, and a component that merely ends in dots. -/
theorem dots_lost_in_reading :
    Pattern.read "/..." ⟨"/work"⟩ = .dir ⟨"/work"⟩ ∧ asked ⟨"/work"⟩ "/..." = ⟨"/"⟩ ∧
    Pattern.read "/..." ⟨"/work"⟩ ≠ Pattern.read "/..." ⟨"/"⟩ ∧
    Pattern.read "pkg..." ⟨"/work"⟩ = .dir ⟨"/work/pkg"⟩ ∧
    asked ⟨"/work"⟩ "pkg..." = ⟨"/work/pkg..."⟩ := by
  decide +kernel

end PackageLoader.DirectoryPatterns
