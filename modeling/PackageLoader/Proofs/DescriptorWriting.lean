import PackageLoader.Proofs.DirectiveLayout

/-! Descriptors written as directives. What is written is a layout of the descriptor, so it is read
back; and whatever was read can be written, so reading, writing and reading again changes nothing. -/
namespace PackageLoader.DescriptorWriting
open Text TextCutting DirectiveText DirectiveLayout

/-! ## Writing -/

/-- An entry with single blanks. -/
def entryText : DescriptorEntry → String
  | .require r => r.module ++ " " ++ r.version
  | .replace r => r.old ++ " => " ++ r.new

/-- A directive on a line of its own. -/
def directiveText : Directive → String
  | .module path => "module " ++ path
  | .version text => "gno " ++ text
  | .entry e => keyword (kindOf e) ++ " " ++ entryText e
  | .block kind => keyword kind ++ " ("

/-- What a descriptor says, the module first and the replacements last. -/
def contents (d : Descriptor) : List Directive :=
  [.module d.module] ++ d.version?.toList.map .version ++
    d.requires.map (fun r => .entry (.require r)) ++ d.replaces.map fun r => .entry (.replace r)

/-- The lines of a descriptor. -/
def rows (d : Descriptor) : List String :=
  (if d.draft then ["// Draft"] else []) ++ (contents d).map directiveText

/-- A descriptor as text, one directive on a line. -/
def write (d : Descriptor) : String :=
  String.ofList ((rows d).flatMap fun row => row.toList ++ ['\n'])

theorem contents_says (d : Descriptor) : Says (contents d) d := by
  have none {α β : Type} (f : α → Directive) (g : Directive → Option β) (other : ∀ a, g (f a) = none)
      (items : List α) : (items.map f).filterMap g = [] := by
    rw [List.filterMap_map, List.filterMap_eq_nil_iff]
    exact fun a _ => other a
  have all {α : Type} (f : α → Directive) (g : Directive → Option α) (own : ∀ a, g (f a) = some a)
      (items : List α) : (items.map f).filterMap g = items := by
    rw [List.filterMap_map, show g ∘ f = some from funext own, List.filterMap_some]
  constructor <;> simp only [contents, List.filterMap_append]
  case module =>
    rw [none _ declared? (fun _ => rfl), none _ declared? (fun _ => rfl),
      none _ declared? (fun _ => rfl)]
    rfl
  case version =>
    rw [all _ version? (fun _ => rfl), none _ version? (fun _ => rfl), none _ version? (fun _ => rfl),
      List.append_nil, List.append_nil]
    rfl
  case requires =>
    rw [none _ required? (fun _ => rfl), all _ required? (fun _ => rfl),
      none _ required? (fun _ => rfl), List.append_nil]
    rfl
  case replaces =>
    rw [none _ replaced? (fun _ => rfl), none _ replaced? (fun _ => rfl),
      all _ replaced? (fun _ => rfl)]
    rfl

/-- No directive of a descriptor opens a block. -/
theorem contents_single (d : Descriptor) : ∀ directive ∈ contents d, ∀ kind, directive ≠ .block kind := by
  intro directive member kind same
  subst same
  simp [contents] at member

/-- One blank. -/
theorem space_gap : Gap [' '] :=
  ⟨by decide, List.forall_mem_singleton.mpr (by decide)⟩

theorem entryText_spelled (e : DescriptorEntry) : EntryText e (entryText e).toList := by
  cases e with
  | require r =>
    have spelled := EntryText.require r space_gap
    rwa [show (entryText (.require r)).toList = r.module.toList ++ [' '] ++ r.version.toList by
      simp [entryText]]
  | replace r =>
    have spelled := EntryText.replace r space_gap.2 space_gap.2
    rwa [show (entryText (.replace r)).toList =
      r.old.toList ++ [' '] ++ '=' :: '>' :: ([' '] ++ r.new.toList) by simp [entryText]]

/-- A text may be a whole line. -/
theorem line_alone (text : List Char) : Line text text := by
  have nothing : Blanks [] := List.forall_mem_nil _
  have plain : Line text ([] ++ text ++ []) := .plain nothing nothing
  rwa [List.nil_append, List.append_nil] at plain

/-- What is written for a directive is spelled as a line of its own. -/
theorem directiveText_spelled {directive : Directive} (single : ∀ kind, directive ≠ .block kind) :
    ∃ text, SingleText directive text ∧ Line text (directiveText directive).toList := by
  cases directive with
  | module path =>
    refine ⟨_, .module path space_gap, ?_⟩
    rw [show (directiveText (.module path)).toList = "module".toList ++ [' '] ++ path.toList by
      simp [directiveText]]
    exact line_alone _
  | version text =>
    by_cases filled : text = ""
    · subst filled
      have plain : Line "gno".toList ([] ++ "gno".toList ++ [' ']) :=
        .plain (List.forall_mem_nil _) space_gap.2
      exact ⟨_, .noVersion, plain⟩
    · refine ⟨_, .version text space_gap filled, ?_⟩
      rw [show (directiveText (.version text)).toList = "gno".toList ++ [' '] ++ text.toList by
        simp [directiveText]]
      exact line_alone _
  | entry e =>
    refine ⟨_, .entry space_gap (entryText_spelled e), ?_⟩
    rw [show (directiveText (.entry e)).toList =
      (keyword (kindOf e)).toList ++ [' '] ++ (entryText e).toList by simp [directiveText]]
    exact line_alone _
  | block kind => exact absurd rfl (single kind)

/-- Directives on lines of their own are a layout. -/
theorem singles_layout {said : List Directive}
    (single : ∀ directive ∈ said, ∀ kind, directive ≠ .block kind) :
    Layout none said false (said.map fun directive => (directiveText directive).toList) := by
  induction said with
  | nil => exact .done
  | cons directive said ih =>
    obtain ⟨own, others⟩ := List.forall_mem_cons.mp single
    obtain ⟨text, spelled, stands⟩ := directiveText_spelled own
    exact .single spelled stands (ih others)

/-- A word has no line end in it. -/
theorem word_whole {cs : List Char} (word : IsWord cs) : '\n' ∉ cs := by
  intro member
  exact absurd (word.2 '\n' member) (by decide)

/-- What can be written stays on its line. -/
theorem directiveText_whole {directive : Directive} (writable : Writable directive) :
    '\n' ∉ (directiveText directive).toList := by
  cases directive with
  | module path =>
    have whole := word_whole (term_of_isModulePath writable.1).1
    simpa [directiveText] using whole
  | version text =>
    have whole := writable.2.1
    simpa [directiveText] using whole
  | entry e =>
    cases e with
    | require r =>
      have module := word_whole (term_of_isModulePath writable.1).1
      have version := word_whole writable.2.1
      simpa [directiveText, entryText, keyword, kindOf] using ⟨module, version⟩
    | replace r =>
      have old := word_whole writable.1.1
      have new := word_whole writable.2.2.1
      simpa [directiveText, entryText, keyword, kindOf] using ⟨old, new⟩
  | block kind =>
    cases kind <;> simp [directiveText, keyword]

theorem joined_rows {rows : List String} (whole : ∀ row ∈ rows, '\n' ∉ row.toList) :
    Joined (rows.map String.toList) (rows.flatMap fun row => row.toList ++ ['\n']) := by
  induction rows with
  | nil => exact .nil
  | cons row rows ih =>
    obtain ⟨own, others⟩ := List.forall_mem_cons.mp whole
    rw [List.map_cons, List.flatMap_cons, List.append_assoc]
    exact .newline own (ih others)

/-- What is written for a descriptor lays it out. -/
theorem write_laidOut {d : Descriptor} (expressible : Expressible d) : LaidOut d (write d) := by
  have meaning := contents_says d
  have writable := writable_of_meaning meaning expressible
  have singles := singles_layout (contents_single d)
  have map : ((contents d).map directiveText).map String.toList =
      (contents d).map fun directive => (directiveText directive).toList := List.map_map
  refine ⟨contents d, (rows d).map String.toList, meaning, ?_, ?_⟩
  · rw [rows, List.map_append, map]
    cases d.draft with
    | true =>
      have mark : Mark ([] ++ '/' :: '/' :: " Draft".toList) :=
        .mark " Draft".toList (List.forall_mem_nil _) (by decide)
      exact .mark mark singles
    | false => exact singles
  · rw [write, String.toList_ofList]
    refine joined_rows fun row member => ?_
    rcases List.mem_append.mp member with first | listed
    · cases draft : d.draft with
      | true =>
        rw [draft, if_pos rfl, List.mem_singleton] at first
        subst first
        decide
      | false =>
        rw [draft] at first
        cases first
    · obtain ⟨directive, inside, rfl⟩ := List.mem_map.mp listed
      exact directiveText_whole (writable directive inside)

/-! ## What was read can be written -/

section Parts

variable {part cs : List Char} (inside : part <:+: cs)
include inside

theorem clear_part (clear : ¬ ['/', '/'] <:+: cs) : ¬ ['/', '/'] <:+: part :=
  fun pair => clear (pair.trans inside)

theorem whole_part (whole : '\n' ∉ cs) : '\n' ∉ part :=
  fun member => whole (inside.subset member)

end Parts

/-- What a line says is a part of it and has no comment in it. -/
theorem statement_clear (line : List Char) :
    statement line <:+: line ∧ ¬ ['/', '/'] <:+: statement line := by
  rw [statement]
  cases cut : cut? ['/', '/'] line with
  | none =>
    have clear := (cut?_eq_none_iff (by simp)).mp cut
    exact ⟨trimBlanks_inside line, clear_part (trimBlanks_inside line) clear⟩
  | some parts =>
    obtain ⟨whole, apart⟩ := cut?_pair_eq_some_iff.mp cut
    have clear := without_iff.mp apart.left_of_append
    have front : parts.1 <:+: line := by
      rw [whole]
      exact (List.prefix_append ..).isInfix
    exact ⟨(trimBlanks_inside parts.1).trans front, clear_part (trimBlanks_inside parts.1) clear⟩

/-- An entry that was read can be written. -/
theorem writable_of_readEntry {kind : EntryKind} {spec : List Char} {e : DescriptorEntry}
    (clear : ¬ ['/', '/'] <:+: spec) (read : readEntry kind spec = .ok e) : Writable (.entry e) := by
  have term {word cs : List Char} (part : cs <:+: spec) (member : word ∈ words cs) :
      Term (String.ofList word).toList := by
    obtain ⟨isWord, inside⟩ := isWord_of_mem member
    rw [String.toList_ofList]
    exact ⟨isWord, clear_part (inside.trans part) clear⟩
  cases kind with
  | require =>
    rw [readEntry, readRequirement] at read
    split at read
    · rename_i path version split
      split at read
      · rename_i valid
        cases read
        refine ⟨?_, term (List.infix_refl _) (split ▸ by simp)⟩
        rw [String.toList_ofList]
        exact valid
      · cases read
    · cases read
  | replace =>
    rw [readEntry, readReplacement] at read
    split at read
    · cases read
    · rename_i left right cut
      obtain ⟨whole, apart⟩ := cut?_pair_eq_some_iff.mp cut
      have arrowless := without_iff.mp apart.left_of_append
      split at read
      · rename_i old _ new _ leftWords rightWords
        cases read
        have front : left <:+: spec := by
          rw [whole]
          exact (List.prefix_append ..).isInfix
        have behind : right <:+: spec := ⟨left ++ ['=', '>'], [], by simp [whole]⟩
        have first : old ∈ words left := leftWords ▸ List.mem_cons_self ..
        refine ⟨term front first, ?_, term behind (rightWords ▸ List.mem_cons_self ..)⟩
        rw [String.toList_ofList]
        exact fun arrow => arrowless (arrow.trans (isWord_of_mem first).2)
      · cases read

/-- What is cut off behind the first word is a part of the line. -/
theorem cutAtBlank_inside {line word rest : List Char} (cut : cutAtBlank line = (word, rest)) :
    trimBlanks rest <:+: line := by
  have behind : rest = (line.dropWhile (!isBlank ·)).drop 1 := (congrArg Prod.snd cut).symm
  rw [behind]
  exact (trimBlanks_inside _).trans
    ((List.drop_suffix _ _).trans (List.dropWhile_suffix _)).isInfix

/-- A directive that was read can be written. -/
theorem writable_of_readDirective {line : List Char} {directive : Directive}
    (clear : ¬ ['/', '/'] <:+: line) (whole : '\n' ∉ line)
    (read : readDirective line = .ok directive) : Writable directive := by
  cases cut : cutAtBlank line with
  | mk word rest =>
    have inside := cutAtBlank_inside cut
    by_cases module : word = "module".toList
    · rw [readDirective_module cut rfl module] at read
      split at read
      · rename_i valid
        cases read
        have ends := dropEnds_ends (fun c => decide (c = '"')) (trimBlanks rest)
        rw [Writable, String.toList_ofList]
        refine ⟨valid, fun first => ?_, fun last => ?_⟩
        · simpa using ends.1 '"' first
        · simpa using ends.2 '"' last
      · cases read
    by_cases version : word = "gno".toList ∨ word = "go".toList
    · rw [readDirective_version cut rfl version] at read
      cases read
      rw [Writable, String.toList_ofList]
      exact ⟨trimmed_trimBlanks rest, whole_part inside whole, clear_part inside clear⟩
    by_cases entry : ∃ kind, word = (keyword kind).toList
    · obtain ⟨kind, first⟩ := entry
      rw [readDirective_entry cut rfl first] at read
      split at read
      · cases read
        trivial
      · cases made : readEntry kind (trimBlanks rest) with
        | error fault =>
          rw [made] at read
          cases read
        | ok e =>
          rw [made] at read
          cases read
          exact writable_of_readEntry (clear_part inside clear) made
    · rw [readDirective_unknown cut module version (not_exists.mp entry)] at read
      cases read

/-- All that was read so far can be written. -/
structure Sound (d : DirectiveReading) : Prop where
  module : ∀ path, d.module? = some path → Writable (.module path)
  version : ∀ text, d.version? = some text → Writable (.version text)
  requires : ∀ r ∈ d.requires, Writable (.entry (.require r))
  replaces : ∀ r ∈ d.replaces, Writable (.entry (.replace r))

theorem sound_apply {d : DirectiveReading} {directive : Directive} (sound : Sound d)
    (writable : Writable directive) : Sound (d.apply directive) := by
  have last {α : Type} {a b : α} {items : List α} (member : b ∈ items ++ [a]) : b ∈ items ∨ b = a := by
    simpa using member
  cases directive with
  | module path => exact { sound with module := fun _ same => Option.some.inj same ▸ writable }
  | version text => exact { sound with version := fun _ same => Option.some.inj same ▸ writable }
  | entry e =>
    cases e with
    | require r =>
      exact { sound with requires := fun other member =>
        (last member).elim (sound.requires other) fun same => same ▸ writable }
    | replace r =>
      exact { sound with replaces := fun other member =>
        (last member).elim (sound.replaces other) fun same => same ▸ writable }
  | block kind => exact ⟨sound.module, sound.version, sound.requires, sound.replaces⟩

/-- One more line adds only what can be written. -/
theorem sound_readLine {d d' : DirectiveReading} {line : List Char} {n : Nat} (sound : Sound d)
    (whole : '\n' ∉ line) (read : d.readLine (line, n) = .ok d') : Sound d' := by
  obtain ⟨part, clear⟩ := statement_clear line
  have stays := whole_part part whole
  rw [DirectiveReading.readLine] at read
  split at read
  · cases read
    exact sound
  split at read
  · cases read
  · cases made : d.readStatement (statement line) with
    | error fault =>
      rw [made] at read
      cases read
    | ok next =>
      rw [made] at read
      cases read
      rw [DirectiveReading.readStatement] at made
      split at made
      · cases directive : readDirective (statement line) with
        | error fault =>
          rw [directive] at made
          cases made
        | ok directive' =>
          rw [directive] at made
          cases made
          exact sound_apply sound (writable_of_readDirective clear stays directive)
      · rename_i kind _
        split at made
        · cases made
          exact ⟨sound.module, sound.version, sound.requires, sound.replaces⟩
        · cases entry : readEntry kind (statement line) with
          | error fault =>
            rw [entry] at made
            cases made
          | ok e =>
            rw [entry] at made
            cases made
            exact @sound_apply _ (.entry e) sound (writable_of_readEntry clear entry)

theorem sound_readLines {rows : List (List Char × Nat)} {d d' : DirectiveReading} (sound : Sound d)
    (whole : ∀ row ∈ rows, '\n' ∉ row.1)
    (read : rows.foldlM DirectiveReading.readLine d = .ok d') : Sound d' := by
  induction rows generalizing d with
  | nil =>
    cases read
    exact sound
  | cons row rows ih =>
    obtain ⟨own, others⟩ := List.forall_mem_cons.mp whole
    rw [List.foldlM_cons] at read
    cases made : d.readLine row with
    | error fault =>
      rw [made] at read
      cases read
    | ok next =>
      rw [made] at read
      exact ih (sound_readLine sound own made) others read

/-- A descriptor that was read can be written. -/
theorem expressible_of_readDirectives {text : String} {d : Descriptor}
    (read : readDirectives text = .ok d) : Expressible d := by
  have whole : ∀ row ∈ (lines text.toList).zipIdx 1, '\n' ∉ row.1 := by
    rintro ⟨line, n⟩ member
    exact notMem_of_mem_lines (List.fst_mem_of_mem_zipIdx member)
  have start : Sound {} := ⟨nofun, nofun, nofun, nofun⟩
  rw [readDirectives] at read
  cases made : ((lines text.toList).zipIdx 1).foldlM DirectiveReading.readLine {} with
  | error fault =>
    rw [made] at read
    cases read
  | ok reading =>
    have sound := sound_readLines start whole made
    simp only [made, bind, Except.bind] at read
    split at read
    · cases read
    split at read
    · cases read
    · rename_i path declared
      cases read
      exact ⟨rfl, sound.module path declared, sound.version, sound.requires, sound.replaces⟩

/-! ## Reading and writing -/

/-- Whatever directives can express is read back from every layout of it, the written one among them.
All that is ever read can be expressed, so it is written and read again without a change. -/
theorem written_descriptors_read_back :
    (∀ d text, Expressible d → LaidOut d text → readDirectives text = .ok d) ∧
      (∀ d, Expressible d → LaidOut d (write d)) ∧
      ∀ text d, readDirectives text = .ok d →
        Expressible d ∧ readDirectives (write d) = .ok d := by
  refine ⟨fun d text => readDirectives_laidOut, fun d => write_laidOut, fun text d read => ?_⟩
  have expressible := expressible_of_readDirectives read
  exact ⟨expressible, readDirectives_laidOut expressible (write_laidOut expressible)⟩

/-- A draft with odd words: a parenthesis, a slash at the end, an equals sign. -/
def sample : Descriptor where
  module := "a.b/c"
  version? := some ""
  draft := true
  requires := [⟨"a.b/d", ")"⟩, ⟨"a.b/e", "v1/"⟩]
  replaces := [⟨"=", "../d"⟩]

/-- A layout of the draft, with a block, with comments and with line ends of both forms. -/
def sampleText : String :=
  "\ngno // none\r\nrequire\t(\n  a.b/d )// closed\n // Draft \n) //\n//Drafts\r\n" ++
    "module a.b/c\nreplace ==>../d\nrequire a.b/e v1/ // slash"

theorem sample_expressible : Expressible sample where
  unrestricted := rfl
  module := by
    rw [Writable]
    decide
  version := by
    rintro text ⟨⟩
    exact ⟨⟨nofun, nofun⟩, by decide, by decide⟩
  requires := by
    have each : ∀ r ∈ sample.requires, isModulePath r.module.toList = true ∧
        r.version.toList ≠ [] ∧ (r.version.toList.all fun c => isBlank c = false) ∧
        ¬ ['/', '/'] <:+: r.version.toList := by decide
    intro r member
    obtain ⟨valid, filled, plain, clear⟩ := each r member
    exact ⟨valid, ⟨filled, List.all_iff_forall_prop.mp plain⟩, clear⟩
  replaces := by
    rintro r member
    rw [List.mem_singleton.mp member]
    have word {cs : List Char} (filled : cs ≠ []) (plain : cs.all fun c => isBlank c = false) :
        IsWord cs := ⟨filled, List.all_iff_forall_prop.mp plain⟩
    exact ⟨⟨word (by decide) (by decide), by decide⟩, by decide, word (by decide) (by decide),
      by decide⟩

theorem sample_laidOut : LaidOut sample sampleText := by
  have space : Blanks [' '] := space_gap.2
  have tab : Gap ['\t'] := ⟨by decide, List.forall_mem_singleton.mpr (by decide)⟩
  have nothing : Blanks [] := List.forall_mem_nil _
  have indent : Blanks [' ', ' '] := List.all_iff_forall_prop.mp (by decide)
  refine ⟨[.version "", .entry (.require ⟨"a.b/d", ")"⟩), .module "a.b/c",
    .entry (.replace ⟨"=", "../d"⟩), .entry (.require ⟨"a.b/e", "v1/"⟩)],
    ["".toList, "gno // none".toList, "require\t(".toList, "  a.b/d )// closed".toList,
      " // Draft ".toList, ") //".toList, "//Drafts".toList, "module a.b/c".toList,
      "replace ==>../d".toList, "require a.b/e v1/ // slash".toList],
    ⟨rfl, rfl, rfl, rfl⟩, ?_, ?_⟩
  · refine .idle (.blank nothing) ?_
    refine .single .noVersion
      (@Line.commented _ [] [' '] " none".toList nothing space nofun) ?_
    refine @Layout.opening .require _ _ _ _ _ tab (line_alone _) ?_
    refine @Layout.inner (.require ⟨"a.b/d", ")"⟩) _ _ _ _ _ (.require _ space_gap)
      (@Line.commented _ [' ', ' '] [] " closed".toList indent nothing (by decide)) ?_
    refine @Layout.mark _ _ false _ _ (@Mark.mark [' '] " Draft ".toList space (by decide)) ?_
    refine .closing (@Line.commented _ [] [' '] [] nothing space nofun) ?_
    refine .idle (@Idle.comment [] "Drafts".toList nothing (by decide)) ?_
    refine .single (.module _ space_gap) (line_alone _) ?_
    refine .single (.entry space_gap (@EntryText.replace ⟨"=", "../d"⟩ [] [] nothing nothing))
      (line_alone _) ?_
    exact .single (.entry space_gap (.require _ space_gap))
      (@Line.commented _ [] [' '] " slash".toList nothing space nofun) .done
  · have text : sampleText.toList = "".toList ++ '\n' :: ("gno // none".toList ++ '\r' :: '\n' ::
        ("require\t(".toList ++ '\n' :: ("  a.b/d )// closed".toList ++ '\n' ::
        (" // Draft ".toList ++ '\n' :: (") //".toList ++ '\n' :: ("//Drafts".toList ++ '\r' :: '\n' ::
        ("module a.b/c".toList ++ '\n' :: ("replace ==>../d".toList ++ '\n' ::
          "require a.b/e v1/ // slash".toList)))))))) := by decide +kernel
    rw [text]
    refine .newline (by decide) (.carriage (by decide) (.newline (by decide) (.newline (by decide)
      (.newline (by decide) (.newline (by decide) (.carriage (by decide) ?_))))))
    exact .newline (by decide) (.newline (by decide) (.last (by decide) (by decide)))

theorem sample_read_back : Expressible sample ∧ LaidOut sample sampleText ∧
    readDirectives sampleText = .ok sample ∧ readDirectives (write sample) = .ok sample := by
  obtain ⟨readBack, -, again⟩ := written_descriptors_read_back
  have read := readBack sample sampleText sample_expressible sample_laidOut
  exact ⟨sample_expressible, sample_laidOut, read, (again sampleText sample read).2⟩

end PackageLoader.DescriptorWriting
