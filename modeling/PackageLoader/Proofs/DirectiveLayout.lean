import PackageLoader.Proofs.DirectiveText

/-! Descriptors as they may be laid out: directives one on a line or in blocks, with blanks, comments
and blank lines wherever they do not change what is said. Whatever the layout, reading gives back what
was laid out. -/
namespace PackageLoader.DirectiveLayout
open Text TextCutting DirectiveText

/-! ## Layouts -/

/-- Lines that say the given directives in order, from inside the block that is open to behind the
last block, and whether they mark a draft. Entries may be gathered in blocks wherever they stand next
to others of their kind, or in none. -/
inductive Layout : Option EntryKind → List Directive → Bool → List (List Char) → Prop where
  | done : Layout none [] false []
  | idle {open? : Option EntryKind} {said : List Directive} {draft : Bool} {line : List Char}
      {rest : List (List Char)} (silent : Idle line) (later : Layout open? said draft rest) :
      Layout open? said draft (line :: rest)
  | mark {open? : Option EntryKind} {said : List Directive} {draft : Bool} {line : List Char}
      {rest : List (List Char)} (marked : Mark line) (later : Layout open? said draft rest) :
      Layout open? said true (line :: rest)
  | single {directive : Directive} {said : List Directive} {draft : Bool} {text line : List Char}
      {rest : List (List Char)} (spelled : SingleText directive text) (stands : Line text line)
      (later : Layout none said draft rest) : Layout none (directive :: said) draft (line :: rest)
  | opening {kind : EntryKind} {said : List Directive} {draft : Bool} {gap line : List Char}
      {rest : List (List Char)} (blanks : Gap gap)
      (stands : Line ((keyword kind).toList ++ gap ++ ['(']) line)
      (later : Layout (some kind) said draft rest) : Layout none said draft (line :: rest)
  | inner {e : DescriptorEntry} {said : List Directive} {draft : Bool} {text line : List Char}
      {rest : List (List Char)} (spelled : EntryText e text) (stands : Line text line)
      (later : Layout (some (kindOf e)) said draft rest) :
      Layout (some (kindOf e)) (.entry e :: said) draft (line :: rest)
  | closing {kind : EntryKind} {said : List Directive} {draft : Bool} {line : List Char}
      {rest : List (List Char)} (stands : Line [')'] line) (later : Layout none said draft rest) :
      Layout (some kind) said draft (line :: rest)

/-- Lines one below the other, with line ends of either form; the last one may lack its end. -/
inductive Joined : List (List Char) → List Char → Prop where
  | nil : Joined [] []
  | last {line : List Char} (whole : '\n' ∉ line) (filled : line ≠ []) : Joined [line] line
  | newline {line text : List Char} {rest : List (List Char)} (whole : '\n' ∉ line)
      (later : Joined rest text) : Joined (line :: rest) (line ++ '\n' :: text)
  | carriage {line text : List Char} {rest : List (List Char)} (whole : '\n' ∉ line)
      (later : Joined rest text) : Joined (line :: rest) (line ++ '\r' :: '\n' :: text)

/-- Directives that say what a descriptor says. -/
structure Says (said : List Directive) (d : Descriptor) : Prop where
  module : said.filterMap declared? = [d.module]
  version : said.filterMap version? = d.version?.toList
  requires : said.filterMap required? = d.requires
  replaces : said.filterMap replaced? = d.replaces

/-- A text that lays out a descriptor. -/
def LaidOut (d : Descriptor) (text : String) : Prop :=
  ∃ said rows, Says said d ∧ Layout none said d.draft rows ∧ Joined rows text.toList

/-- A descriptor that directives can express. -/
structure Expressible (d : Descriptor) : Prop where
  unrestricted : d.restricted = false
  module : Writable (.module d.module)
  version : ∀ text, d.version? = some text → Writable (.version text)
  requires : ∀ r ∈ d.requires, Writable (.entry (.require r))
  replaces : ∀ r ∈ d.replaces, Writable (.entry (.replace r))

/-! ## Reading a layout -/

section Lines

variable {d d' : DirectiveReading} {line text : List Char}

/-- A line that says nothing is passed over. -/
theorem readLine_silent (d : DirectiveReading) (n : Nat) (silent : statement line = []) :
    d.readLine (line, n) = .ok d := by
  rw [DirectiveReading.readLine, silent]
  rfl

/-- A line is read as what stands on it. -/
theorem readLine_text (n : Nat) (stands : Line text line) (filled : text ≠ [])
    (trimmed : Trimmed text) (clear : Without '/' '/' text) (fresh : d.repeatsModule text = false)
    (read : d.readStatement text = .ok d') :
    d.readLine (line, n) = .ok d' ∧ isDraftMark line = false := by
  obtain ⟨stated, unmarked⟩ := statement_line stands filled trimmed clear
  refine ⟨?_, unmarked⟩
  rw [DirectiveReading.readLine, stated]
  simp only [List.isEmpty_eq_false_iff.mpr filled, fresh, read, Bool.false_eq_true, ↓reduceIte]
  rfl

/-- Outside a block a directive is taken in, unless it declares a second module. -/
theorem readStatement_outside {directive : Directive} (outside : d.block? = none)
    (read : readDirective text = .ok directive) : d.readStatement text = .ok (d.apply directive) := by
  rw [DirectiveReading.readStatement, outside]
  simp only [read]
  rfl

/-- Inside a block, whatever is no parenthesis is an entry. -/
theorem readStatement_inside {kind : EntryKind} {e : DescriptorEntry} (inside : d.block? = some kind)
    (entry : text ≠ [')']) (read : readEntry kind text = .ok e) :
    d.readStatement text = .ok (d.apply (.entry e)) := by
  rw [DirectiveReading.readStatement, inside]
  simp only [entry, ↓reduceIte, read]
  rfl

theorem repeatsModule_inside {kind : EntryKind} (inside : d.block? = some kind) :
    d.repeatsModule text = false := by
  simp [DirectiveReading.repeatsModule, inside]

end Lines

/-- The module paths that are declared before and by the given directives. -/
def declarations (d : DirectiveReading) (said : List Directive) : List String :=
  d.module?.toList ++ said.filterMap declared?

/-- What is read of directives one after the other, with no block open behind them. -/
def taken (d : DirectiveReading) (said : List Directive) : DirectiveReading :=
  { said.foldl DirectiveReading.apply d with block? := none }

/-- Which block is open plays no role for what is read. -/
theorem taken_block (d : DirectiveReading) (open? : Option EntryKind) (said : List Directive) :
    taken { d with block? := open? } said = taken d said := by
  have alike {a b : DirectiveReading} (same : { a with block? := none } = { b with block? := none })
      (said : List Directive) : taken a said = taken b said := by
    induction said generalizing a b with
    | nil => exact same
    | cons directive said ih =>
      refine ih (a := a.apply directive) (b := b.apply directive) ?_
      obtain ⟨module?, version?, requires, replaces, block?⟩ := a
      obtain ⟨module?', version?', requires', replaces', block?'⟩ := b
      simp only [DirectiveReading.mk.injEq, and_true] at same
      obtain ⟨rfl, rfl, rfl, rfl⟩ := same
      cases directive with
      | entry e => cases e <;> rfl
      | _ => rfl
  exact alike (a := { d with block? := open? }) (b := d) rfl said

/-- A directive that is no block leaves the block open that was. -/
theorem apply_block {d : DirectiveReading} {directive : Directive} {text : List Char}
    (spelled : SingleText directive text) : (d.apply directive).block? = d.block? := by
  cases spelled with
  | @entry e => cases e <;> rfl
  | _ => rfl

/-- One more directive declares at most what it says. -/
theorem declarations_apply (d : DirectiveReading) (directive : Directive) (said : List Directive)
    (once : (declarations d (directive :: said)).length ≤ 1) :
    (declarations (d.apply directive) said).length ≤ 1 ∧
      ((declared? directive).isSome → d.module? = none) := by
  cases directive with
  | module path =>
    cases known : d.module? with
    | none => simpa [declarations, DirectiveReading.apply, declared?, known] using once
    | some other => simp [declarations, declared?, known] at once
  | entry e =>
    refine ⟨?_, by simp [declared?]⟩
    cases e <;> exact once
  | version text => exact ⟨once, by simp [declared?]⟩
  | block kind => exact ⟨once, by simp [declared?]⟩

/-- A layout is read to what it says: line by line, what is read so far and what the other lines say
make up the whole. -/
theorem readLines_layout {open? : Option EntryKind} {said : List Directive} {draft : Bool}
    {rows : List (List Char)} (layout : Layout open? said draft rows)
    (writable : ∀ directive ∈ said, Writable directive) {d : DirectiveReading}
    (opened : d.block? = open?) (once : (declarations d said).length ≤ 1) (n : Nat) :
    (rows.zipIdx n).foldlM DirectiveReading.readLine d = .ok (taken d said) ∧
      rows.any isDraftMark = draft := by
  induction layout generalizing d n with
  | done =>
    obtain ⟨module?, version?, requires, replaces, block?⟩ := d
    cases opened
    exact ⟨rfl, rfl⟩
  | @idle _ _ _ line _ silent later ih =>
    obtain ⟨nothing, unmarked⟩ := statement_idle silent
    obtain ⟨read, marks⟩ := ih writable opened once (n + 1)
    rw [List.zipIdx_cons, List.foldlM_cons, readLine_silent d n nothing, List.any_cons, unmarked]
    exact ⟨read, marks⟩
  | @mark _ _ _ line _ marked later ih =>
    obtain ⟨nothing, isMark⟩ := statement_mark marked
    obtain ⟨read, -⟩ := ih writable opened once (n + 1)
    rw [List.zipIdx_cons, List.foldlM_cons, readLine_silent d n nothing, List.any_cons, isMark]
    exact ⟨read, rfl⟩
  | @single directive said _ text line _ spelled stands later ih =>
    obtain ⟨own, others⟩ := List.forall_mem_cons.mp writable
    obtain ⟨read, trimmed, clear, filled, declares⟩ := singleText_read own spelled
    obtain ⟨fewer, first⟩ := declarations_apply d directive said once
    have fresh : d.repeatsModule text = false := by
      simp only [DirectiveReading.repeatsModule, opened, Option.isNone_none, Bool.true_and,
        Bool.and_eq_false_iff, decide_eq_false_iff_not]
      by_cases same : (cutAtBlank text).1 = "module".toList
      · exact Or.inl (by rw [first (declares same)]; rfl)
      · exact Or.inr same
    obtain ⟨taken', unmarked⟩ := readLine_text n stands filled trimmed clear fresh
      (readStatement_outside opened read)
    obtain ⟨rest, marks⟩ := ih others ((apply_block spelled).trans opened) fewer (n + 1)
    rw [List.zipIdx_cons, List.foldlM_cons, taken', List.any_cons, unmarked]
    exact ⟨rest, marks⟩
  | @opening kind said _ gap line _ blanks stands later ih =>
    obtain ⟨read, trimmed, clear, other⟩ := opening_read kind blanks
    have fresh : d.repeatsModule ((keyword kind).toList ++ gap ++ ['(']) = false := by
      simp only [DirectiveReading.repeatsModule, other, decide_false, Bool.and_false]
    obtain ⟨taken', unmarked⟩ := readLine_text n stands (by simp) trimmed clear fresh
      (readStatement_outside opened read)
    obtain ⟨rest, marks⟩ := ih writable (d := { d with block? := some kind }) rfl once (n + 1)
    rw [List.zipIdx_cons, List.foldlM_cons, taken', List.any_cons, unmarked]
    exact ⟨rest.trans (congrArg _ (taken_block d (some kind) said)), marks⟩
  | @inner e said _ text line _ spelled stands later ih =>
    obtain ⟨own, others⟩ := List.forall_mem_cons.mp writable
    obtain ⟨read, trimmed, clear, long⟩ := entryText_read own spelled
    have entry : text ≠ [')'] := by
      rintro rfl
      exact absurd long (by decide)
    have filled : text ≠ [] := by
      rintro rfl
      cases long
    obtain ⟨fewer, -⟩ := declarations_apply d (.entry e) said once
    have kept : (d.apply (.entry e)).block? = d.block? := by cases e <;> rfl
    obtain ⟨taken', unmarked⟩ := readLine_text n stands filled trimmed clear
      (repeatsModule_inside opened) (readStatement_inside opened entry read)
    obtain ⟨rest, marks⟩ := ih others (kept.trans opened) fewer (n + 1)
    rw [List.zipIdx_cons, List.foldlM_cons, taken', List.any_cons, unmarked]
    exact ⟨rest, marks⟩
  | @closing kind said _ line _ stands later ih =>
    have paren : IsWord [')'] := ⟨by simp, by simpa using signs_plain ')' (by simp)⟩
    have read : d.readStatement [')'] = .ok { d with block? := none } := by
      rw [DirectiveReading.readStatement, opened]
      rfl
    obtain ⟨taken', unmarked⟩ := readLine_text n stands paren.1 (trimmed_of_isWord paren)
      (List.isChain_singleton _) (repeatsModule_inside opened) read
    obtain ⟨rest, marks⟩ := ih writable (d := { d with block? := none }) rfl once (n + 1)
    rw [List.zipIdx_cons, List.foldlM_cons, taken', List.any_cons, unmarked]
    exact ⟨rest.trans (congrArg _ (taken_block d none said)), marks⟩

/-! ## Line ends -/

/-- A line with a carriage return behind it, or without. -/
def Ended (line ended : List Char) : Prop :=
  ended = line ∨ ended = line ++ ['\r']

theorem carriage_blank : Blanks ['\r'] :=
  List.forall_mem_singleton.mpr (by decide)

theorem line_ended {text line ended : List Char} (stands : Line text line) (ends : Ended line ended) :
    Line text ended := by
  obtain rfl | rfl := ends
  · exact stands
  cases stands with
  | plain before behind =>
    rw [List.append_assoc]
    refine .plain before fun c member => ?_
    exact (List.mem_append.mp member).elim (behind c) (carriage_blank c)
  | commented comment before behind apart =>
    rw [List.append_assoc]
    exact .commented (comment ++ ['\r']) before behind apart

theorem trimBlanks_ended (comment : List Char) : trimBlanks (comment ++ ['\r']) = trimBlanks comment :=
  @trimBlanks_padded [] _ (List.forall_mem_nil _) carriage_blank comment

theorem idle_ended {line ended : List Char} (idle : Idle line) (ends : Ended line ended) :
    Idle ended := by
  obtain rfl | rfl := ends
  · exact idle
  cases idle with
  | blank blanks =>
    exact .blank fun c member => (List.mem_append.mp member).elim (blanks c) (carriage_blank c)
  | comment comment blanks unmarked =>
    rw [List.append_assoc]
    exact .comment (comment ++ ['\r']) blanks ((trimBlanks_ended comment).symm ▸ unmarked)

theorem mark_ended {line ended : List Char} (mark : Mark line) (ends : Ended line ended) :
    Mark ended := by
  obtain rfl | rfl := ends
  · exact mark
  obtain ⟨comment, blanks, marked⟩ := mark
  rw [List.append_assoc]
  exact .mark (comment ++ ['\r']) blanks ((trimBlanks_ended comment).trans marked)

/-- The lines of a text are the ones that it was joined from, but for carriage returns. -/
theorem lines_joined {rows : List (List Char)} {text : List Char} (joined : Joined rows text) :
    List.Forall₂ Ended rows (lines text) := by
  induction joined with
  | nil => exact .nil
  | last whole filled =>
    rw [lines_last filled whole]
    exact .cons (Or.inl rfl) .nil
  | newline whole later ih =>
    rw [lines_append whole]
    exact .cons (Or.inl rfl) ih
  | @carriage line text rest whole later ih =>
    have ended : '\n' ∉ line ++ ['\r'] := by simpa using whole
    have split := lines_append ended text
    rw [List.append_assoc] at split
    rw [show line ++ '\r' :: '\n' :: text = line ++ (['\r'] ++ '\n' :: text) from rfl, split]
    exact .cons (Or.inr rfl) ih

/-- Carriage returns at line ends change nothing about a layout. -/
theorem layout_ended {open? : Option EntryKind} {said : List Directive} {draft : Bool}
    {rows ended : List (List Char)} (layout : Layout open? said draft rows)
    (ends : List.Forall₂ Ended rows ended) : Layout open? said draft ended := by
  induction layout generalizing ended with
  | done =>
    cases ends
    exact .done
  | idle silent later ih =>
    obtain _ | ⟨own, others⟩ := ends
    exact .idle (idle_ended silent own) (ih others)
  | mark marked later ih =>
    obtain _ | ⟨own, others⟩ := ends
    exact .mark (mark_ended marked own) (ih others)
  | single spelled stands later ih =>
    obtain _ | ⟨own, others⟩ := ends
    exact .single spelled (line_ended stands own) (ih others)
  | opening blanks stands later ih =>
    obtain _ | ⟨own, others⟩ := ends
    exact .opening blanks (line_ended stands own) (ih others)
  | inner spelled stands later ih =>
    obtain _ | ⟨own, others⟩ := ends
    exact .inner spelled (line_ended stands own) (ih others)
  | closing stands later ih =>
    obtain _ | ⟨own, others⟩ := ends
    exact .closing (line_ended stands own) (ih others)

/-! ## Descriptors -/

/-- What directives one after the other add up to. -/
theorem taken_fields (said : List Directive) (d : DirectiveReading) :
    (taken d said).module? = ((said.filterMap declared?).getLast?).or d.module? ∧
      (taken d said).version? = ((said.filterMap version?).getLast?).or d.version? ∧
      (taken d said).requires = d.requires ++ said.filterMap required? ∧
      (taken d said).replaces = d.replaces ++ said.filterMap replaced? := by
  induction said generalizing d with
  | nil => simp [taken]
  | cons directive said ih =>
    obtain ⟨module, version, requires, replaces⟩ := ih (d.apply directive)
    have last {α : Type} (a : α) (rest : List α) (known : Option α) :
        rest.getLast?.or (some a) = (a :: rest).getLast?.or known := by
      rw [List.getLast?_cons, Option.some_or]
      cases rest.getLast? <;> rfl
    have step : taken d (directive :: said) = taken (d.apply directive) said := rfl
    rw [step, module, version, requires, replaces]
    cases directive with
    | module path => exact ⟨last path _ _, rfl, rfl, rfl⟩
    | version text => exact ⟨rfl, last text _ _, rfl, rfl⟩
    | entry e =>
      cases e with
      | require r => exact ⟨rfl, rfl, List.append_assoc .., rfl⟩
      | replace r => exact ⟨rfl, rfl, rfl, List.append_assoc ..⟩
    | block kind => exact ⟨rfl, rfl, rfl, rfl⟩

/-- What expresses a descriptor can be written. -/
theorem writable_of_meaning {said : List Directive} {d : Descriptor} (meaning : Says said d)
    (expressible : Expressible d) : ∀ directive ∈ said, Writable directive := by
  intro directive member
  cases directive with
  | module path =>
    have listed : path ∈ said.filterMap declared? := List.mem_filterMap.mpr ⟨_, member, rfl⟩
    rw [meaning.module, List.mem_singleton] at listed
    exact listed ▸ expressible.module
  | version text =>
    have listed : text ∈ said.filterMap version? := List.mem_filterMap.mpr ⟨_, member, rfl⟩
    rw [meaning.version, Option.mem_toList] at listed
    exact expressible.version text listed
  | entry e =>
    cases e with
    | require r =>
      have listed : r ∈ said.filterMap required? := List.mem_filterMap.mpr ⟨_, member, rfl⟩
      exact expressible.requires r (meaning.requires ▸ listed)
    | replace r =>
      have listed : r ∈ said.filterMap replaced? := List.mem_filterMap.mpr ⟨_, member, rfl⟩
      exact expressible.replaces r (meaning.replaces ▸ listed)
  | block kind => trivial

/-- A text that lays out a descriptor is read to it. -/
theorem readDirectives_laidOut {d : Descriptor} {text : String} (expressible : Expressible d)
    (laidOut : LaidOut d text) : readDirectives text = .ok d := by
  obtain ⟨said, rows, meaning, layout, joined⟩ := laidOut
  obtain ⟨read, marks⟩ := readLines_layout (layout_ended layout (lines_joined joined))
    (writable_of_meaning meaning expressible) (d := {}) rfl (by simp [declarations, meaning.module]) 1
  obtain ⟨module, version, requires, replaces⟩ := taken_fields said {}
  rw [meaning.module] at module
  rw [meaning.version] at version
  rw [meaning.requires] at requires
  rw [meaning.replaces] at replaces
  rw [readDirectives, read]
  have closed : (taken {} said).block? = none := rfl
  simp only [bind, Except.bind, closed, module, version, requires, replaces, marks]
  obtain ⟨path, version?, draft, restricted, _, _⟩ := d
  cases expressible.unrestricted
  cases version? <;> rfl

end PackageLoader.DirectiveLayout
