import PackageLoader.Proofs.DirectiveLayout

/-! The rules for descriptors of directives, and what is wrong where they are broken. The rules say which
lines may come next: outside a block, in one, and behind a line that declared the module. What is read
from lines that keep the rules depends on their directives only, and the first line that breaks them
decides about the error. -/
namespace PackageLoader.DirectiveRules
open Text TextCutting DirectiveText

/-! ## Lines and their words -/

/-- A text without what is dropped at its ends. -/
structure Stripped (drops : Char → Bool) (cs text : List Char) : Prop where
  whole : ∃ front behind, cs = front ++ text ++ behind ∧ (∀ c ∈ front, drops c = true) ∧
    ∀ c ∈ behind, drops c = true
  first : ∀ c, text.head? = some c → drops c = false
  last : ∀ c, text.getLast? = some c → drops c = false

/-- The text of a line in front of its first comment. -/
inductive Uncommented : List Char → List Char → Prop where
  | plain {line : List Char} (none : ¬ ['/', '/'] <:+: line) : Uncommented line line
  | comment {before : List Char} (comment : List Char) (first : ¬ ['/', '/'] <:+: before ++ ['/']) :
      Uncommented (before ++ '/' :: '/' :: comment) before

/-- What a line says between blanks and in front of its comment. -/
def States (line text : List Char) : Prop :=
  ∃ before, Uncommented line before ∧ Stripped isBlank before text

/-- The first word of a text and what stands behind it between blanks. -/
def Headed (text word spec : List Char) : Prop :=
  ∃ rest, text = word ++ rest ∧ IsWord word ∧ (∀ c, rest.head? = some c → isBlank c = true) ∧
    Stripped isBlank rest spec

/-! ## The rules -/

/-- An entry that is well-formed: a valid path with a version, or words on both sides of the first arrow. -/
inductive EntryOf : EntryKind → List Char → DescriptorEntry → Prop where
  | require {spec path version : List Char} (two : words spec = [path, version])
      (valid : isModulePath path = true) :
      EntryOf .require spec (.require ⟨String.ofList path, String.ofList version⟩)
  | replace {left right old new : List Char} {olds news : List (List Char)}
      (first : ¬ ['=', '>'] <:+: left ++ ['=']) (before : words left = old :: olds)
      (behind : words right = new :: news) :
      EntryOf .replace (left ++ '=' :: '>' :: right) (.replace ⟨String.ofList old, String.ofList new⟩)

/-- What a line outside a block may say. -/
inductive DirectiveOf : List Char → Directive → Prop where
  | module {text spec path : List Char} (headed : Headed text "module".toList spec)
      (quoted : Stripped (· = '"') spec path) (valid : isModulePath path = true) :
      DirectiveOf text (.module (String.ofList path))
  | version {text word spec : List Char} (headed : Headed text word spec)
      (first : word = "gno".toList ∨ word = "go".toList) :
      DirectiveOf text (.version (String.ofList spec))
  | entry {kind : EntryKind} {text spec : List Char} {e : DescriptorEntry}
      (headed : Headed text (keyword kind).toList spec) (entry : EntryOf kind spec e) :
      DirectiveOf text (.entry e)
  | block {kind : EntryKind} {text : List Char} (headed : Headed text (keyword kind).toList ['(']) :
      DirectiveOf text (.block kind)

/-- The block that is open behind a directive. -/
def opens? : Directive → Option EntryKind
  | .block kind => some kind
  | _ => none

/-- A line that may come next, what it says and the block that is open behind it. -/
inductive Keeps : Option EntryKind → List Char → List Directive → Option EntryKind → Prop where
  | silent {open? : Option EntryKind} {line : List Char} (states : States line []) :
      Keeps open? line [] open?
  | outside {line text : List Char} {directive : Directive} (states : States line text)
      (gives : DirectiveOf text directive) : Keeps none line [directive] (opens? directive)
  | inside {kind : EntryKind} {line text : List Char} {e : DescriptorEntry} (states : States line text)
      (gives : EntryOf kind text e) : Keeps (some kind) line [.entry e] (some kind)
  | closing {kind : EntryKind} {line : List Char} (states : States line [')']) :
      Keeps (some kind) line [] none

/-- Lines that keep the rules, what they say and the block that is open behind them. No module is declared
twice. -/
inductive Follow : List (List Char) → List Directive → Option EntryKind → Prop where
  | start : Follow [] [] none
  | next {rows : List (List Char)} {said more : List Directive} {open? behind? : Option EntryKind}
      {line : List Char} (before : Follow rows said open?) (keeps : Keeps open? line more behind?)
      (once : ((said ++ more).filterMap declared?).length ≤ 1) :
      Follow (rows ++ [line]) (said ++ more) behind?

/-- What directives add up to: the module that is declared once, the last version, and every entry in
order. -/
structure Adds (said : List Directive) (d : Descriptor) : Prop where
  module : said.filterMap declared? = [d.module]
  version : (said.filterMap version?).getLast? = d.version?
  requires : said.filterMap required? = d.requires
  replaces : said.filterMap replaced? = d.replaces
  unrestricted : d.restricted = false

/-- Lines that make a descriptor. It is a draft if one of them is the comment that marks drafts. -/
def Accepted (rows : List (List Char)) (d : Descriptor) : Prop :=
  ∃ said, Follow rows said none ∧ Adds said d ∧ (d.draft = true ↔ ∃ row ∈ rows, Mark row)

/-! ## Broken rules -/

/-- What is wrong with a text that is no entry of a kind. A requirement that is not two words is faulted
before its path is looked at, and a replacement without an arrow before its sides are. -/
inductive EntryFault : EntryKind → List Char → DescriptorFault → Prop where
  | words {spec : List Char} (other : (words spec).length ≠ 2) :
      EntryFault .require spec (.malformedRequire (String.ofList spec))
  | path {spec path version : List Char} (two : words spec = [path, version])
      (invalid : isModulePath path = false) :
      EntryFault .require spec (.invalidPath (String.ofList path))
  | arrow {spec : List Char} (none : ¬ ['=', '>'] <:+: spec) :
      EntryFault .replace spec (.malformedReplace (String.ofList spec))
  | side {left right : List Char} (first : ¬ ['=', '>'] <:+: left ++ ['='])
      (empty : words left = [] ∨ words right = []) :
      EntryFault .replace (left ++ '=' :: '>' :: right)
        (.oneSidedReplace (String.ofList (left ++ '=' :: '>' :: right)))

/-- The words that directives start with. -/
def directiveWords : List (List Char) :=
  ["module", "gno", "go", "require", "replace"].map String.toList

/-- What is wrong with a line outside a block that is no directive: its module path, the entry behind its
keyword, or the first word, which no directive starts with. -/
inductive DirectiveFault : List Char → DescriptorFault → Prop where
  | path {text spec path : List Char} (headed : Headed text "module".toList spec)
      (quoted : Stripped (· = '"') spec path) (invalid : isModulePath path = false) :
      DirectiveFault text (.invalidPath (String.ofList path))
  | entry {kind : EntryKind} {text spec : List Char} {what : DescriptorFault}
      (headed : Headed text (keyword kind).toList spec) (noBlock : spec ≠ ['('])
      (fault : EntryFault kind spec what) : DirectiveFault text what
  | unknown {text word spec : List Char} (headed : Headed text word spec)
      (other : word ∉ directiveWords) : DirectiveFault text (.unknownDirective (String.ofList text))

/-- What is wrong with a numbered line behind some directives. Once a module is declared, the next line
that would declare one is wrong whatever its path is. -/
inductive Breaks (said : List Directive) (n : Nat) : Option EntryKind → List Char → DescriptorError → Prop
    where
  | again {line text spec : List Char} (states : States line text)
      (headed : Headed text "module".toList spec) (declared : said.filterMap declared? ≠ []) :
      Breaks said n none line .duplicateModule
  | outside {line text : List Char} {what : DescriptorFault} (states : States line text)
      (fault : DirectiveFault text what)
      (first : said.filterMap declared? = [] ∨ ¬ ∃ spec, Headed text "module".toList spec) :
      Breaks said n none line (.fault n what)
  | inside {kind : EntryKind} {line text : List Char} {what : DescriptorFault}
      (states : States line text) (filled : text ≠ []) (inner : text ≠ [')'])
      (fault : EntryFault kind text what) : Breaks said n (some kind) line (.fault n what)

/-- Why lines make no descriptor: what is wrong with the first line that breaks the rules, whatever
follows it; a block that is open at the end; or else that no module is declared. -/
inductive Refused : List (List Char) → DescriptorError → Prop where
  | broken {rows behind : List (List Char)} {said : List Directive} {open? : Option EntryKind}
      {line : List Char} {e : DescriptorError} (before : Follow rows said open?)
      (breaks : Breaks said (rows.length + 1) open? line e) : Refused (rows ++ line :: behind) e
  | unclosed {rows : List (List Char)} {said : List Directive} {kind : EntryKind}
      (all : Follow rows said (some kind)) : Refused rows (.fault rows.length .unclosedBlock)
  | missing {rows : List (List Char)} {said : List Directive} (all : Follow rows said none)
      (undeclared : said.filterMap declared? = []) : Refused rows .missingModule

/-! ## Reading lines and words -/

theorem stripped_eq {drops : Char → Bool} {cs text : List Char} (stripped : Stripped drops cs text) :
    (cs.dropWhile drops).rdropWhile drops = text := by
  obtain ⟨⟨front, behind, rfl, before, after⟩, first, last⟩ := stripped
  rw [dropEnds_padded before after]
  exact dropEnds_eq_self first last

theorem stripped_ends (drops : Char → Bool) (cs : List Char) :
    Stripped drops cs ((cs.dropWhile drops).rdropWhile drops) where
  whole := by
    have front := List.takeWhile_append_dropWhile (p := drops) (l := cs)
    have behind := congrArg List.reverse
      (List.takeWhile_append_dropWhile (p := drops) (l := (cs.dropWhile drops).reverse))
    rw [List.reverse_append, List.reverse_reverse] at behind
    have dropped (ds : List Char) : ∀ c ∈ ds.takeWhile drops, drops c = true :=
      List.all_eq_true.mp List.all_takeWhile
    refine ⟨cs.takeWhile drops, ((cs.dropWhile drops).reverse.takeWhile drops).reverse, ?_, dropped cs,
      fun c member => dropped _ c (List.mem_reverse.mp member)⟩
    rw [List.append_assoc, List.rdropWhile, behind, front]
  first := (dropEnds_ends drops cs).1
  last := (dropEnds_ends drops cs).2

theorem states_eq {line text : List Char} (states : States line text) : statement line = text := by
  obtain ⟨before, uncommented, stripped⟩ := states
  cases uncommented with
  | plain none =>
    rw [statement, (cut?_eq_none_iff (by simp)).mpr none]
    exact stripped_eq stripped
  | comment comment first =>
    rw [statement, cut?_pair_eq_some_iff.mpr ⟨rfl, without_iff.mpr first⟩]
    exact stripped_eq stripped

theorem states_statement (line : List Char) : States line (statement line) := by
  rw [statement]
  split
  · rename_i before comment cut
    obtain ⟨rfl, first⟩ := cut?_pair_eq_some_iff.mp cut
    exact ⟨before, .comment comment (without_iff.mp first), stripped_ends isBlank before⟩
  · rename_i cut
    exact ⟨line, .plain ((cut?_eq_none_iff (by simp)).mp cut), stripped_ends isBlank line⟩

theorem mark_iff {line : List Char} : isDraftMark line = true ↔ Mark line := by
  constructor
  · intro marked
    rw [isDraftMark] at marked
    split at marked
    · rename_i before comment cut
      obtain ⟨rfl, -⟩ := cut?_pair_eq_some_iff.mp cut
      simp only [Bool.and_eq_true, List.all_eq_true, decide_eq_true_eq] at marked
      exact .mark comment marked.1 marked.2
    · cases marked
  · intro mark
    exact (statement_mark mark).2

theorem headed_cut {text word spec : List Char} (headed : Headed text word spec) :
    ∃ rest, cutAtBlank text = (word, rest) ∧ trimBlanks rest = spec := by
  obtain ⟨rest, rfl, isWord, ends, stripped⟩ := headed
  refine ⟨_, cutAtBlank_word isWord ends, ?_⟩
  have trimmed : trimBlanks rest = spec := stripped_eq stripped
  cases rest with
  | nil => exact trimmed
  | cons c rest =>
    have blank : Blanks [c] := List.forall_mem_singleton.mpr (ends c rfl)
    have padded := trimBlanks_padded blank (List.forall_mem_nil _) rest
    rw [List.append_nil] at padded
    exact padded.symm.trans trimmed

theorem exists_headed {text : List Char} (filled : text ≠ []) (trimmed : Trimmed text) :
    ∃ word spec, Headed text word spec := by
  refine ⟨text.takeWhile (!isBlank ·), _, text.dropWhile (!isBlank ·),
    List.takeWhile_append_dropWhile.symm, ⟨?_, ?_⟩, ?_, stripped_ends isBlank _⟩
  · obtain ⟨c, rest, rfl⟩ := List.exists_cons_of_ne_nil filled
    rw [List.takeWhile_cons_of_pos (by simp [trimmed.1 c rfl])]
    exact List.cons_ne_nil _ _
  · intro c member
    simpa using List.all_eq_true.mp List.all_takeWhile c member
  · intro c first
    have stops := List.head?_dropWhile_not (!isBlank ·) text
    rw [first] at stops
    simpa using stops

/-! ## Reading what keeps the rules and what does not -/

theorem entryOf_read {kind : EntryKind} {spec : List Char} {e : DescriptorEntry}
    (entry : EntryOf kind spec e) : readEntry kind spec = .ok e := by
  cases entry with
  | require two valid =>
    rw [readEntry, readRequirement, two]
    simp only [valid, ↓reduceIte]
    rfl
  | replace first before behind =>
    rw [readEntry, readReplacement, cut?_pair_eq_some_iff.mpr ⟨rfl, without_iff.mpr first⟩]
    simp only [before, behind]
    rfl

theorem entryFault_read {kind : EntryKind} {spec : List Char} {what : DescriptorFault}
    (fault : EntryFault kind spec what) : readEntry kind spec = .error what := by
  cases fault with
  | words other =>
    rw [readEntry, readRequirement]
    split
    · rename_i two
      rw [two] at other
      exact absurd rfl other
    · rfl
  | path two invalid =>
    rw [readEntry, readRequirement, two]
    simp only [invalid]
    rfl
  | arrow none =>
    rw [readEntry, readReplacement, (cut?_eq_none_iff (by simp)).mpr none]
    rfl
  | side first empty =>
    rw [readEntry, readReplacement, cut?_pair_eq_some_iff.mpr ⟨rfl, without_iff.mpr first⟩]
    simp only
    split
    · rename_i before behind
      rw [before, behind] at empty
      rcases empty with none | none <;> cases none
    · rfl

theorem entry_total (kind : EntryKind) (spec : List Char) :
    (∃ e, EntryOf kind spec e) ∨ ∃ what, EntryFault kind spec what := by
  cases kind with
  | require =>
    by_cases two : (words spec).length = 2
    · obtain ⟨path, version, both⟩ := List.length_eq_two.mp two
      cases valid : isModulePath path with
      | true => exact .inl ⟨_, .require both valid⟩
      | false => exact .inr ⟨_, .path both valid⟩
    · exact .inr ⟨_, .words two⟩
  | replace =>
    cases cut : cut? ['=', '>'] spec with
    | none => exact .inr ⟨_, .arrow ((cut?_eq_none_iff (by simp)).mp cut)⟩
    | some parts =>
      obtain ⟨left, right⟩ := parts
      obtain ⟨rfl, apart⟩ := cut?_pair_eq_some_iff.mp cut
      have first := without_iff.mp apart
      cases before : words left with
      | nil => exact .inr ⟨_, .side first (.inl before)⟩
      | cons old olds =>
        cases behind : words right with
        | nil => exact .inr ⟨_, .side first (.inr behind)⟩
        | cons new news => exact .inl ⟨_, .replace first before behind⟩

/-- Nothing shorter than an arrow or two words is an entry. -/
theorem entryOf_long {kind : EntryKind} {spec : List Char} {e : DescriptorEntry}
    (entry : EntryOf kind spec e) : 2 ≤ spec.length := by
  cases entry with
  | require two =>
    match spec with
    | [] => cases two
    | [c] =>
      cases blank : isBlank c with
      | true => cases (words_blanks (List.forall_mem_singleton.mpr blank)).symm.trans two
      | false =>
        have word : IsWord [c] := ⟨List.cons_ne_nil _ _, List.forall_mem_singleton.mpr blank⟩
        cases (words_word word).symm.trans two
    | _ :: _ :: rest => exact Nat.le_add_left 2 rest.length
  | replace =>
    simp only [List.length_append, List.length_cons]
    omega

theorem ne_of_entryOf {kind : EntryKind} {spec short : List Char} {e : DescriptorEntry}
    (entry : EntryOf kind spec e) (less : short.length < 2) : spec ≠ short := by
  rintro rfl
  exact absurd (entryOf_long entry) (Nat.not_le.mpr less)

theorem directiveOf_read {text : List Char} {directive : Directive} (gives : DirectiveOf text directive) :
    readDirective text = .ok directive := by
  cases gives with
  | module headed quoted valid =>
    obtain ⟨rest, cut, behind⟩ := headed_cut headed
    have path : unquoted _ = _ := stripped_eq quoted
    rw [readDirective_module cut behind rfl, path, if_pos valid]
  | version headed first =>
    obtain ⟨rest, cut, behind⟩ := headed_cut headed
    exact readDirective_version cut behind first
  | entry headed entry =>
    obtain ⟨rest, cut, behind⟩ := headed_cut headed
    rw [readDirective_entry cut behind rfl, if_neg (ne_of_entryOf entry (by decide)), entryOf_read entry]
    rfl
  | block headed =>
    obtain ⟨rest, cut, behind⟩ := headed_cut headed
    rw [readDirective_entry cut behind rfl, if_pos rfl]

theorem directiveFault_read {text : List Char} {what : DescriptorFault}
    (fault : DirectiveFault text what) : readDirective text = .error what := by
  cases fault with
  | path headed quoted invalid =>
    obtain ⟨rest, cut, behind⟩ := headed_cut headed
    have path : unquoted _ = _ := stripped_eq quoted
    rw [readDirective_module cut behind rfl, path, if_neg (Bool.eq_false_iff.mp invalid)]
  | entry headed noBlock fault =>
    obtain ⟨rest, cut, behind⟩ := headed_cut headed
    rw [readDirective_entry cut behind rfl, if_neg noBlock, entryFault_read fault]
    rfl
  | unknown headed other =>
    obtain ⟨rest, cut, -⟩ := headed_cut headed
    simp only [directiveWords, List.map_cons, List.map_nil, List.mem_cons, List.not_mem_nil, or_false,
      not_or] at other
    obtain ⟨noModule, noGno, noGo, noRequire, noReplace⟩ := other
    refine readDirective_unknown cut noModule (not_or.mpr ⟨noGno, noGo⟩) fun kind => ?_
    cases kind
    · exact noRequire
    · exact noReplace

theorem directive_total {text : List Char} (filled : text ≠ []) (trimmed : Trimmed text) :
    (∃ directive, DirectiveOf text directive) ∨ ∃ what, DirectiveFault text what := by
  obtain ⟨word, spec, headed⟩ := exists_headed filled trimmed
  by_cases known : word ∈ directiveWords
  · have entry {kind : EntryKind} (first : word = (keyword kind).toList) :
        (∃ directive, DirectiveOf text directive) ∨ ∃ what, DirectiveFault text what := by
      subst first
      by_cases block : spec = ['(']
      · subst block
        exact .inl ⟨_, .block headed⟩
      · rcases entry_total kind spec with ⟨e, entry⟩ | ⟨what, fault⟩
        · exact .inl ⟨_, .entry headed entry⟩
        · exact .inr ⟨_, .entry headed block fault⟩
    simp only [directiveWords, List.map_cons, List.map_nil, List.mem_cons, List.not_mem_nil,
      or_false] at known
    rcases known with rfl | gno | go | require | replace
    · have quoted := stripped_ends (fun c => decide (c = '"')) spec
      cases valid : isModulePath (unquoted spec) with
      | true => exact .inl ⟨_, .module headed quoted valid⟩
      | false => exact .inr ⟨_, .path headed quoted valid⟩
    · exact .inl ⟨_, .version headed (.inl gno)⟩
    · exact .inl ⟨_, .version headed (.inr go)⟩
    · exact @entry .require require
    · exact @entry .replace replace
  · exact .inr ⟨_, .unknown headed known⟩

/-! ## Reading lines -/

/-- What is read of some directives, with a block open or none. -/
def told (said : List Directive) (open? : Option EntryKind) : DirectiveReading where
  module? := (said.filterMap declared?).getLast?
  version? := (said.filterMap version?).getLast?
  requires := said.filterMap required?
  replaces := said.filterMap replaced?
  block? := open?

theorem told_apply (said : List Directive) (open? : Option EntryKind) (directive : Directive) :
    (told said open?).apply directive = told (said ++ [directive]) ((opens? directive).or open?) := by
  cases directive with
  | entry e => cases e <;>
    simp [told, DirectiveReading.apply, DirectiveReading.add, declared?, version?, required?, replaced?, opens?]
  | _ => simp [told, DirectiveReading.apply, declared?, version?, required?, replaced?, opens?]

/-- The head of a text says whether it would declare a module again. -/
theorem repeatsModule_iff {said : List Directive} {text : List Char} :
    (told said none).repeatsModule text = true ↔
      said.filterMap declared? ≠ [] ∧ (cutAtBlank text).1 = "module".toList := by
  simp only [DirectiveReading.repeatsModule, told, Option.isNone_none, Bool.true_and, Bool.and_eq_true,
    decide_eq_true_eq, List.getLast?_isSome]

theorem readLine_stated {d : DirectiveReading} {line text : List Char} (states : States line text)
    (filled : text ≠ []) (fresh : d.repeatsModule text = false) (n : Nat) :
    d.readLine (line, n) = (d.readStatement text).mapError (.fault n) := by
  rw [DirectiveReading.readLine, states_eq states]
  simp only [List.isEmpty_eq_false_iff.mpr filled, fresh, Bool.false_eq_true, ↓reduceIte]

theorem headed_filled {text word spec : List Char} (headed : Headed text word spec) : text ≠ [] := by
  obtain ⟨rest, rfl, isWord, -⟩ := headed
  simp [isWord.1]

theorem headed_word {text word spec : List Char} (headed : Headed text word spec) :
    (cutAtBlank text).1 = word := by
  obtain ⟨rest, cut, -⟩ := headed_cut headed
  rw [cut]

theorem directiveOf_headed {text : List Char} {directive : Directive} (gives : DirectiveOf text directive) :
    ∃ word spec, Headed text word spec := by
  cases gives with
  | module headed | version headed | entry headed | block headed => exact ⟨_, _, headed⟩

theorem directiveFault_headed {text : List Char} {what : DescriptorFault}
    (fault : DirectiveFault text what) : ∃ word spec, Headed text word spec := by
  cases fault with
  | path headed | entry headed | unknown headed => exact ⟨_, _, headed⟩

/-- Only what starts with its word declares a module. -/
theorem directiveOf_declares {text : List Char} {directive : Directive}
    (gives : DirectiveOf text directive) (first : (cutAtBlank text).1 = "module".toList) :
    ∃ path, directive = .module path := by
  cases gives with
  | module => exact ⟨_, rfl⟩
  | version headed own =>
    rw [headed_word headed] at first
    rcases own with gno | go
    · exact absurd (gno.symm.trans first) (by decide)
    · exact absurd (go.symm.trans first) (by decide)
  | entry headed | block headed =>
    rw [headed_word headed] at first
    exact absurd first (keyword_clear _).2.2

theorem keeps_read {said more : List Directive} {open? behind? : Option EntryKind} {line : List Char}
    (keeps : Keeps open? line more behind?) (once : ((said ++ more).filterMap declared?).length ≤ 1)
    (n : Nat) : (told said open?).readLine (line, n) = .ok (told (said ++ more) behind?) := by
  cases keeps with
  | silent states =>
    rw [List.append_nil]
    exact DirectiveLayout.readLine_silent _ n (states_eq states)
  | @outside _ text directive states gives =>
    have fresh : (told said none).repeatsModule text = false := by
      rw [Bool.eq_false_iff, ne_eq, repeatsModule_iff]
      rintro ⟨declared, first⟩
      obtain ⟨path, rfl⟩ := directiveOf_declares gives first
      have before := List.length_pos_iff.mpr declared
      have single : ([Directive.module path].filterMap declared?).length = 1 := rfl
      rw [List.filterMap_append, List.length_append] at once
      omega
    obtain ⟨word, spec, headed⟩ := directiveOf_headed gives
    rw [readLine_stated states (headed_filled headed) fresh,
      DirectiveLayout.readStatement_outside rfl (directiveOf_read gives), told_apply, Option.or_none]
    rfl
  | @inside kind _ text e states gives =>
    rw [readLine_stated states (ne_of_entryOf gives (by decide)) (DirectiveLayout.repeatsModule_inside rfl),
      DirectiveLayout.readStatement_inside rfl (ne_of_entryOf gives (by decide)) (entryOf_read gives),
      told_apply]
    rfl
  | closing states =>
    rw [List.append_nil, readLine_stated states (by simp) (DirectiveLayout.repeatsModule_inside rfl)]
    rfl

theorem breaks_read {said : List Directive} {open? : Option EntryKind} {line : List Char} {n : Nat}
    {e : DescriptorError} (breaks : Breaks said n open? line e) :
    (told said open?).readLine (line, n) = .error e := by
  cases breaks with
  | @again _ text _ states headed declared =>
    have twice : (told said none).repeatsModule text = true :=
      repeatsModule_iff.mpr ⟨declared, headed_word headed⟩
    rw [DirectiveReading.readLine, states_eq states]
    simp only [List.isEmpty_eq_false_iff.mpr (headed_filled headed), twice, Bool.false_eq_true, ↓reduceIte]
  | @outside _ text what states fault first =>
    obtain ⟨word, spec, headed⟩ := directiveFault_headed fault
    have fresh : (told said none).repeatsModule text = false := by
      rw [Bool.eq_false_iff, ne_eq, repeatsModule_iff]
      rintro ⟨declared, module⟩
      rcases first with none | other
      · exact declared none
      · obtain rfl := (headed_word headed).symm.trans module
        exact other ⟨spec, headed⟩
    rw [readLine_stated states (headed_filled headed) fresh, DirectiveReading.readStatement]
    simp only [told, directiveFault_read fault]
    rfl
  | inside states filled inner fault =>
    rw [readLine_stated states filled (DirectiveLayout.repeatsModule_inside rfl),
      DirectiveReading.readStatement]
    simp only [told, if_neg inner, entryFault_read fault]
    rfl

/-- Every line keeps the rules or breaks them. -/
theorem line_total {said : List Directive} (once : (said.filterMap declared?).length ≤ 1)
    (open? : Option EntryKind) (line : List Char) (n : Nat) :
    (∃ more behind?, Keeps open? line more behind? ∧ ((said ++ more).filterMap declared?).length ≤ 1) ∨
      ∃ e, Breaks said n open? line e := by
  have states := states_statement line
  have trimmed : Trimmed (statement line) := by
    obtain ⟨_, -, stripped⟩ := states
    exact ⟨stripped.first, stripped.last⟩
  generalize statement line = text at *
  by_cases filled : text = []
  · subst filled
    exact .inl ⟨[], open?, .silent states, by rwa [List.append_nil]⟩
  cases open? with
  | some kind =>
    by_cases closing : text = [')']
    · subst closing
      exact .inl ⟨[], none, .closing states, by rwa [List.append_nil]⟩
    · rcases entry_total kind text with ⟨e, entry⟩ | ⟨what, fault⟩
      · have quiet : [Directive.entry e].filterMap declared? = [] := rfl
        refine .inl ⟨_, _, .inside states entry, ?_⟩
        rwa [List.filterMap_append, quiet, List.append_nil]
      · exact .inr ⟨_, .inside states filled closing fault⟩
  | none =>
    by_cases again : said.filterMap declared? ≠ [] ∧ ∃ spec, Headed text "module".toList spec
    · obtain ⟨declared, spec, headed⟩ := again
      exact .inr ⟨_, .again states headed declared⟩
    · -- Here the line declares no module again, so it may only fail by itself.
      have first := not_and_or.mp again
      rw [not_not] at first
      rcases directive_total filled trimmed with ⟨directive, gives⟩ | ⟨what, fault⟩
      · refine .inl ⟨_, _, .outside states gives, ?_⟩
        rw [List.filterMap_append]
        rcases first with none | other
        · rw [none, List.nil_append]
          exact List.length_filterMap_le ..
        · have quiet : [directive].filterMap declared? = [] := by
            cases gives with
            | module headed => exact absurd ⟨_, headed⟩ other
            | _ => rfl
          rwa [quiet, List.append_nil]
      · exact .inr ⟨_, .outside states fault first⟩

/-! ## Reading texts -/

/-- The rows from the first on, numbered, read one after the other. -/
def readRows (rows : List (List Char)) : Except DescriptorError DirectiveReading :=
  (rows.zipIdx 1).foldlM DirectiveReading.readLine {}

theorem readRows_append (rows behind : List (List Char)) : readRows (rows ++ behind) =
    (readRows rows).bind ((behind.zipIdx (rows.length + 1)).foldlM DirectiveReading.readLine) := by
  rw [readRows, List.zipIdx_append, List.foldlM_append, Nat.add_comm]
  rfl

theorem follow_once {rows : List (List Char)} {said : List Directive} {open? : Option EntryKind}
    (follow : Follow rows said open?) : (said.filterMap declared?).length ≤ 1 := by
  cases follow with
  | start => exact Nat.zero_le 1
  | next _ _ once => exact once

theorem follow_read {rows : List (List Char)} {said : List Directive} {open? : Option EntryKind}
    (follow : Follow rows said open?) : readRows rows = .ok (told said open?) := by
  induction follow with
  | start => rfl
  | @next rows said more open? behind? line _ keeps once ih =>
    rw [readRows_append, ih]
    show DirectiveReading.readLine _ _ >>= _ = _
    rw [keeps_read keeps once]
    rfl

theorem broken_read {rows : List (List Char)} {said : List Directive} {open? : Option EntryKind}
    (follow : Follow rows said open?) {line : List Char} {e : DescriptorError}
    (breaks : Breaks said (rows.length + 1) open? line e) (behind : List (List Char)) :
    readRows (rows ++ line :: behind) = .error e := by
  rw [readRows_append, follow_read follow]
  show DirectiveReading.readLine _ _ >>= _ = _
  rw [breaks_read breaks]
  rfl

/-- All lines keep the rules, or one of them is the first that does not. -/
theorem rows_total (rows : List (List Char)) : (∃ said open?, Follow rows said open?) ∨
    ∃ front line behind said open? e, rows = front ++ line :: behind ∧ Follow front said open? ∧
      Breaks said (front.length + 1) open? line e := by
  -- From the front on: what comes behind the first broken line is not looked at.
  induction rows using List.reverseRecOn with
  | nil => exact .inl ⟨[], none, .start⟩
  | append_singleton rows line ih =>
    rcases ih with ⟨said, open?, follow⟩ | ⟨front, first, behind, said, open?, e, rfl, follow, breaks⟩
    · rcases line_total (follow_once follow) open? line (rows.length + 1) with
        ⟨more, behind?, keeps, once⟩ | ⟨e, breaks⟩
      · exact .inl ⟨_, _, follow.next keeps once⟩
      · exact .inr ⟨rows, line, [], said, open?, e, rfl, follow, breaks⟩
    · refine .inr ⟨front, first, behind ++ [line], said, open?, e, ?_, follow, breaks⟩
      rw [List.append_assoc, List.cons_append]

/-- What is made of a reading behind the last row. -/
def concluded (rows : List (List Char)) (d : DirectiveReading) : Except DescriptorError Descriptor :=
  match d.block?, d.module? with
  | some _, _ => .error (.fault rows.length .unclosedBlock)
  | none, none => .error .missingModule
  | none, some path => .ok ⟨path, d.version?, rows.any isDraftMark, false, d.requires, d.replaces⟩

theorem readDirectives_eq (text : String) : readDirectives text =
    (readRows (lines text.toList)).bind (concluded (lines text.toList)) := by
  refine congrArg (Except.bind _) (funext fun d => ?_)
  obtain ⟨module?, version?, requires, replaces, block?⟩ := d
  cases block? <;> cases module? <;> rfl

theorem accepted_read {text : String} {d : Descriptor} (accepted : Accepted (lines text.toList) d) :
    readDirectives text = .ok d := by
  obtain ⟨said, follow, adds, marks⟩ := accepted
  have draft : (lines text.toList).any isDraftMark = d.draft := by
    rw [Bool.eq_iff_iff, marks, List.any_eq_true]
    simp only [mark_iff]
  rw [readDirectives_eq, follow_read follow]
  simp only [Except.bind, concluded, told, adds.module, adds.version, adds.requires, adds.replaces, draft]
  obtain ⟨path, version?, draft, restricted, requires, replaces⟩ := d
  cases adds.unrestricted
  rfl

theorem refused_read {text : String} {e : DescriptorError} (refused : Refused (lines text.toList) e) :
    readDirectives text = .error e := by
  rw [readDirectives_eq]
  generalize lines text.toList = rows at refused ⊢
  cases refused with
  | broken before breaks =>
    rw [broken_read before breaks]
    rfl
  | unclosed all =>
    rw [follow_read all]
    rfl
  | missing all undeclared =>
    rw [follow_read all]
    simp only [Except.bind, concluded, told, undeclared, List.getLast?_nil]

/-- Every text makes a descriptor or is refused. -/
theorem text_total (rows : List (List Char)) : (∃ d, Accepted rows d) ∨ ∃ e, Refused rows e := by
  rcases rows_total rows with
    ⟨said, open?, follow⟩ | ⟨front, line, behind, said, open?, e, rfl, follow, breaks⟩
  · cases open? with
    | some kind => exact .inr ⟨_, .unclosed follow⟩
    | none =>
      have once := follow_once follow
      cases declared : said.filterMap declared? with
      | nil => exact .inr ⟨_, .missing follow declared⟩
      | cons path others =>
        rw [declared, List.length_cons] at once
        obtain rfl := List.eq_nil_of_length_eq_zero (Nat.le_zero.mp (Nat.le_of_succ_le_succ once))
        exact .inl ⟨⟨path, (said.filterMap version?).getLast?, rows.any isDraftMark, false,
          said.filterMap required?, said.filterMap replaced?⟩, said, follow,
          ⟨declared, rfl, rfl, rfl, rfl⟩, by simp only [List.any_eq_true, mark_iff]⟩
  · exact .inr ⟨e, .broken follow breaks⟩

/-- A text is read to a descriptor if its lines keep the rules and add up to that. Otherwise the first line
that breaks them is at fault, whatever follows it, or the end of the text is. A line breaks them exactly
where the lines before it cannot go on with it. -/
theorem directives_follow_rules (text : String) :
    (∀ d, readDirectives text = .ok d ↔ Accepted (lines text.toList) d) ∧
      (∀ e, readDirectives text = .error e ↔ Refused (lines text.toList) e) ∧
      ∀ rows said open? line, Follow rows said open? →
        ((∃ e, Breaks said (rows.length + 1) open? line e) ↔
          ¬ ∃ said' behind?, Follow (rows ++ [line]) said' behind?) := by
  refine ⟨fun d => ⟨fun read => ?_, accepted_read⟩, fun e => ⟨fun read => ?_, refused_read⟩, ?_⟩
  · rcases text_total (lines text.toList) with ⟨other, accepted⟩ | ⟨e, refused⟩
    · cases read.symm.trans (accepted_read accepted)
      exact accepted
    · cases read.symm.trans (refused_read refused)
  · rcases text_total (lines text.toList) with ⟨d, accepted⟩ | ⟨other, refused⟩
    · cases read.symm.trans (accepted_read accepted)
    · cases read.symm.trans (refused_read refused)
      exact refused
  · intro rows said open? line follow
    constructor
    · rintro ⟨e, breaks⟩ ⟨said', behind?, on⟩
      cases (broken_read follow breaks []).symm.trans (follow_read on)
    · intro stuck
      rcases line_total (follow_once follow) open? line (rows.length + 1) with
        ⟨more, behind?, keeps, once⟩ | broken
      · exact absurd ⟨_, _, follow.next keeps once⟩ stuck
      · exact broken

/-- The second module is at fault, not what is wrong behind it. -/
theorem secondModule_refused :
    Refused (lines "module a.b/c\nmodule /\nrequire x\n".toList) .duplicateModule ∧
      ((∃ e, Breaks [] 1 none "require x".toList e) ↔
        ¬ ∃ said behind?, Follow ["require x".toList] said behind?) :=
  ⟨((directives_follow_rules "module a.b/c\nmodule /\nrequire x\n").2.1 _).mp (by decide),
    (directives_follow_rules "module a.b/c\n").2.2 [] [] none "require x".toList .start⟩

end PackageLoader.DirectiveRules
