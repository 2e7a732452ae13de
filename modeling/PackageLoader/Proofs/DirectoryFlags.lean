import Mathlib.Tactic.SplitIfs
import PackageLoader.CommandLine.Run
import PackageLoader.Proofs.FirstDiscovery
import PackageLoader.Proofs.GuessRuns

/-! Directories on the command line. Such a directory becomes the last entry for its variable, so what
the request and the process say about that variable does not count. But an entry is read like any other:
blanks at the ends of the directory are lost, and a directory of blanks alone leaves the matter to a
guess. -/
namespace PackageLoader.DirectoryFlags
open Text TextCutting GuessRuns
open FirstDiscovery (bind_eq_ok_iff)

/-! ## Reading the command line -/

/-- The name of an option. -/
def optionName : DirOption → String
  | .root => "gno-root"
  | .builtin => "builtin-dir"

/-- The name of an option on the command line. -/
def flag (d : DirOption) : String :=
  "--" ++ optionName d

/-- The directory that is given for an option. -/
def given? : DirOption → Options → Option String
  | .root, o => o.root?
  | .builtin, o => o.builtin?

/-- A command line gives a directory for an option, behind an equals sign or as the next argument. What
stands behind a double dash is a pattern. -/
def GivesDir (d : DirOption) (value : String) : List String → Prop
  | [] => False
  | argument :: rest => argument = flag d ++ "=" ++ value ∨
      argument = flag d ∧ rest.head? = some value ∨ argument ≠ "--" ∧ GivesDir d value rest

/-- How arguments are read as far as directories go. -/
inductive Reads : Options → List String → Options → Prop where
  | done (o : Options) : Reads o [] o
  | patterns (o : Options) (rest : List String) :
      Reads o ("--" :: rest) (rest.foldl Options.addPattern o)
  | joined {o next last : Options} {d : DirOption} {value : String} {rest : List String}
      (set : o.setDir d value = .ok next) (more : Reads next rest last) :
      Reads o ((flag d ++ "=" ++ value) :: rest) last
  | apart {o next last : Options} {d : DirOption} {value : String} {rest : List String}
      (bare : Options.looksLikeOption value = false) (set : o.setDir d value = .ok next)
      (more : Reads next rest last) : Reads o (flag d :: value :: rest) last
  | other {o next last : Options} {argument : String} {rest : List String}
      (noFlag : ∀ d, argument ≠ flag d ∧ ∀ value, argument ≠ flag d ++ "=" ++ value)
      (same : ∀ d, given? d next = given? d o) (more : Reads next rest last) :
      Reads o (argument :: rest) last

theorem flag_toList (d : DirOption) : (flag d).toList = '-' :: '-' :: (optionName d).toList := by
  cases d <;> rfl

theorem longName?_dir_iff {name : List Char} {d : DirOption} :
    longName? name = some (.dir d) ↔ name = (optionName d).toList := by
  constructor
  · intro named
    unfold longName? at named
    split_ifs at named <;> cases named <;> assumption
  · rintro rfl
    cases d <;> decide

/-- The name of an option ends in front of an equals sign. -/
theorem optionName_parts (d : DirOption) {tail : List Char} (ends : ∀ c ∈ tail.head?, c = '=') :
    ((optionName d).toList ++ tail).takeWhile (· ≠ '=') = (optionName d).toList := by
  have plain : ∀ c ∈ (optionName d).toList, decide (c ≠ '=') = true := by
    cases d <;> exact List.all_iff_forall_prop.mp (by decide)
  rw [List.takeWhile_append_of_pos plain]
  cases tail with
  | nil => simp
  | cons c tail => simp [ends c rfl]

/-- An argument with another name gives no directory. -/
theorem noFlag_of_name {argument : String} {text : List Char}
    (dashes : argument.toList = '-' :: '-' :: text)
    (other : ∀ d, longName? (text.takeWhile (· ≠ '=')) ≠ some (.dir d)) (d : DirOption) :
    argument ≠ flag d ∧ ∀ value, argument ≠ flag d ++ "=" ++ value := by
  have noName (tail : List Char) (ends : ∀ c ∈ tail.head?, c = '=') :
      argument.toList ≠ (flag d).toList ++ tail := by
    intro same
    rw [dashes, flag_toList] at same
    simp only [List.cons_append, List.cons.injEq, true_and] at same
    apply other d
    rw [same, optionName_parts d ends, longName?_dir_iff]
  constructor
  · rintro rfl
    exact noName [] (by simp) (by simp)
  · rintro value rfl
    exact noName ('=' :: value.toList) (by simp) (by simp)

/-- Neither does an argument without two dashes. -/
theorem noFlag_of_front {argument : String}
    (noDashes : ∀ text, argument.toList ≠ '-' :: '-' :: text) (d : DirOption) :
    argument ≠ flag d ∧ ∀ value, argument ≠ flag d ++ "=" ++ value := by
  constructor
  · rintro rfl
    exact noDashes _ (flag_toList d)
  · rintro value rfl
    refine noDashes ((optionName d).toList ++ '=' :: value.toList) ?_
    simp [flag_toList]

/-- An argument with the name of an option gives what stands behind the equals sign, or is the flag
alone. -/
theorem flag_of_name {argument : String} {text : List Char} {d : DirOption}
    (dashes : argument.toList = '-' :: '-' :: text)
    (named : longName? (text.takeWhile (· ≠ '=')) = some (.dir d)) :
    argument.toList = (flag d).toList ++ text.dropWhile (· ≠ '=') := by
  rw [dashes, flag_toList, ← longName?_dir_iff.mp named]
  simp only [List.cons_append, List.takeWhile_append_dropWhile]

theorem setFlag_same {o next : Options} {f : Flag} (set : o.setFlag f = .ok next) (d : DirOption) :
    given? d next = given? d o := by
  unfold Options.setFlag at set
  split at set
  · cases set
  · cases set
    cases d <;> rfl

theorem readLetter_same {o next : Options} {c : Char} (read : o.readLetter c = .ok next)
    (d : DirOption) : given? d next = given? d o := by
  unfold Options.readLetter at read
  split at read
  · exact setFlag_same read d
  · cases read
  · cases read

theorem readLetters_same {o next : Options} {letters : List Char}
    (read : letters.foldlM Options.readLetter o = .ok next) (d : DirOption) :
    given? d next = given? d o := by
  induction letters generalizing o with
  | nil =>
    cases read
    rfl
  | cons c letters ih =>
    rw [List.foldlM_cons, bind_eq_ok_iff] at read
    obtain ⟨o', first, more⟩ := read
    exact (ih more).trans (readLetter_same first d)

theorem addPattern_same (o : Options) (pattern : String) (d : DirOption) :
    given? d (o.addPattern pattern) = given? d o := by
  cases d <;> rfl

theorem readFrom_reads (o : Options) (arguments : List String) {last : Options}
    (read : o.readFrom arguments = .ok last) : Reads o arguments last := by
  fun_induction Options.readFrom o arguments with
  | case1 =>
    cases read
    exact .done _
  | case2 o argument rest dashes =>
    cases read
    obtain rfl : argument = "--" := String.toList_inj.mp dashes
    exact .patterns o rest
  | case3 => cases read
  | case4 o argument rest text _ dashes name f whole named ih =>
    obtain ⟨next, set, more⟩ := bind_eq_ok_iff.mp read
    refine .other (noFlag_of_name dashes fun d => ?_) (setFlag_same set) (ih next more)
    rw [named]
    simp
  | case5 o argument rest text _ dashes name d head value whole named ih =>
    obtain ⟨next, set, more⟩ := bind_eq_ok_iff.mp read
    have equals : head = '=' := by
      have stops := List.head?_dropWhile_not (· ≠ '=') text
      rw [whole] at stops
      simpa using stops
    obtain rfl : argument = flag d ++ "=" ++ String.ofList value := by
      rw [← String.toList_inj, flag_of_name dashes named, whole, equals]
      simp
    exact .joined set (ih next more)
  | case6 => cases read
  | case7 o argument text _ dashes name d whole named value rest bare ih =>
    obtain ⟨next, set, more⟩ := bind_eq_ok_iff.mp read
    obtain rfl : argument = flag d := by
      rw [← String.toList_inj, flag_of_name dashes named, whole, List.append_nil]
    exact .apart (Bool.eq_false_iff.mpr bare) set (ih next more)
  | case8 => cases read
  | case9 o argument rest text _ dashes name help flags joined apart =>
    cases read
  | case10 o argument rest c letters _ noDash dashes ih =>
    obtain ⟨next, set, more⟩ := bind_eq_ok_iff.mp read
    refine .other (noFlag_of_front fun text double => ?_) (readLetters_same set) (ih next more)
    rw [dashes, List.cons.injEq, List.cons.injEq] at double
    exact noDash double.2.1
  | case11 o argument rest _ noDashes _ ih =>
    exact .other (noFlag_of_front noDashes) (addPattern_same o argument) (ih read)

/-- Options with a directory. -/
def withDir : DirOption → String → Options → Options
  | .root, value, o => { o with root? := some value }
  | .builtin, value, o => { o with builtin? := some value }

/-- A directory is never empty and given once. -/
theorem setDir_eq_ok_iff {o next : Options} {d : DirOption} {value : String} :
    o.setDir d value = .ok next ↔ value ≠ "" ∧ given? d o = none ∧ withDir d value o = next := by
  by_cases empty : value = ""
  · simp [Options.setDir, empty]
  · cases d with
    | root => cases taken : o.root? <;> simp [Options.setDir, given?, withDir, empty, taken]
    | builtin => cases taken : o.builtin? <;> simp [Options.setDir, given?, withDir, empty, taken]

theorem setDir_given {o next : Options} {d : DirOption} {value : String}
    (set : o.setDir d value = .ok next) : given? d next = some value := by
  obtain ⟨-, -, rfl⟩ := setDir_eq_ok_iff.mp set
  cases d <;> rfl

/-- A directory that was given is not replaced. -/
theorem setDir_keeps {o next : Options} {d e : DirOption} {value other : String}
    (set : o.setDir e other = .ok next) (given : given? d o = some value) :
    given? d next = some value := by
  obtain ⟨-, free, rfl⟩ := setDir_eq_ok_iff.mp set
  cases d <;> cases e
  · cases free.symm.trans given
  · exact given
  · exact given
  · cases free.symm.trans given

theorem reads_keeps {o last : Options} {arguments : List String} (reads : Reads o arguments last)
    {d : DirOption} {value : String} (given : given? d o = some value) :
    given? d last = some value := by
  induction reads with
  | done => exact given
  | patterns o rest =>
    induction rest generalizing o with
    | nil => exact given
    | cons pattern rest ih => exact ih _ ((addPattern_same o pattern d).trans given)
  | joined set _ ih => exact ih (setDir_keeps set given)
  | apart _ set _ ih => exact ih (setDir_keeps set given)
  | other _ same _ ih => exact ih ((same d).trans given)

/-- Options are told apart by their names, and their names from what stands behind an equals sign. -/
theorem flag_append_inj {d e : DirOption} {a b : List Char} (first : ∀ c ∈ a.head?, c = '=')
    (second : ∀ c ∈ b.head?, c = '=') (same : (flag d).toList ++ a = (flag e).toList ++ b) :
    d = e ∧ a = b := by
  rw [flag_toList, flag_toList] at same
  simp only [List.cons_append, List.cons.injEq, true_and] at same
  have names := congrArg (List.takeWhile (· ≠ '=')) same
  rw [optionName_parts d first, optionName_parts e second] at names
  have both := (longName?_dir_iff.mpr names).symm.trans (longName?_dir_iff.mpr rfl)
  cases both
  exact ⟨rfl, List.append_cancel_left same⟩

theorem joined_inj {d e : DirOption} {value other : String}
    (same : flag d ++ "=" ++ value = flag e ++ "=" ++ other) : d = e ∧ value = other := by
  have texts := congrArg String.toList same
  simp only [String.toList_append, List.append_assoc] at texts
  obtain ⟨options, values⟩ := flag_append_inj (by simp) (by simp) texts
  refine ⟨options, String.toList_inj.mp ?_⟩
  simpa using values

theorem flag_inj {d e : DirOption} (same : flag d = flag e) : d = e := by
  cases d <;> cases e <;> first | rfl | exact absurd same (by decide)

theorem flag_ne_joined (d e : DirOption) (value : String) : flag d ≠ flag e ++ "=" ++ value := by
  intro same
  have texts := congrArg String.toList same
  rw [← List.append_nil (flag d).toList] at texts
  simp only [String.toList_append, List.append_assoc] at texts
  have nothing := (flag_append_inj (by simp) (by simp) texts).2
  simp at nothing

theorem flag_looksLikeOption (d : DirOption) (tail : String) :
    Options.looksLikeOption (flag d ++ tail) = true := by
  simp [Options.looksLikeOption, flag_toList]

/-- The directory that a command line gives for an option is the one that is read. -/
theorem reads_gives {o last : Options} {arguments : List String} (reads : Reads o arguments last)
    {d : DirOption} {value : String} (gives : GivesDir d value arguments) :
    given? d last = some value := by
  induction reads with
  | done => exact gives.elim
  | patterns o rest =>
    have dashes (tail : String) : "--" ≠ flag d ++ tail := by
      cases d <;> simp [flag, optionName, ← String.toList_inj]
    rcases gives with same | ⟨same, -⟩ | ⟨goesOn, -⟩
    · exact absurd (same.trans String.append_assoc) (dashes _)
    · exact absurd (same.trans String.append_empty.symm) (dashes _)
    · exact absurd rfl goesOn
  | @joined o next last e other rest set more ih =>
    rcases gives with same | ⟨same, -⟩ | ⟨-, later⟩
    · obtain ⟨rfl, rfl⟩ := joined_inj same
      exact reads_keeps more (setDir_given set)
    · exact absurd same.symm (flag_ne_joined d e other)
    · exact ih later
  | @apart o next last e other rest bare set more ih =>
    -- The directory itself looks like no option, so it starts no other one.
    have noFlag (tail : String) : other ≠ flag d ++ tail := by
      rintro rfl
      cases bare.symm.trans (flag_looksLikeOption d tail)
    rcases gives with same | ⟨same, first⟩ | ⟨-, same | ⟨same, -⟩ | ⟨-, later⟩⟩
    · exact absurd same (flag_ne_joined e d value)
    · cases flag_inj same
      cases first
      exact reads_keeps more (setDir_given set)
    · exact absurd (same.trans String.append_assoc) (noFlag _)
    · exact absurd (same.trans String.append_empty.symm) (noFlag _)
    · exact ih later
  | other noFlag _ _ ih =>
    rcases gives with same | ⟨same, -⟩ | ⟨-, later⟩
    · exact absurd same ((noFlag d).2 value)
    · exact absurd same (noFlag d).1
    · exact ih later

theorem readFrom_joined (o : Options) (d : DirOption) (value : String) (rest : List String) :
    o.readFrom ((flag d ++ "=" ++ value) :: rest) =
      (o.setDir d value >>= fun next => next.readFrom rest) := by
  obtain ⟨c, cs, spelled⟩ : ∃ c cs, (optionName d).toList = c :: cs := by
    cases d <;> exact ⟨_, _, rfl⟩
  have text : (flag d ++ "=" ++ value).toList = '-' :: '-' :: c :: (cs ++ '=' :: value.toList) := by
    simp [flag_toList, spelled]
  have name : (c :: (cs ++ '=' :: value.toList)).takeWhile (· ≠ '=') = c :: cs := by
    have parts := @optionName_parts d ('=' :: value.toList) (by simp)
    rwa [spelled] at parts
  have behind : (c :: (cs ++ '=' :: value.toList)).dropWhile (· ≠ '=') = '=' :: value.toList := by
    have whole := List.takeWhile_append_dropWhile (p := (· ≠ '='))
      (l := c :: (cs ++ '=' :: value.toList))
    rw [name] at whole
    exact List.append_cancel_left whole
  rw [Options.readFrom, text]
  simp only [name, behind, longName?_dir_iff.mpr spelled.symm, String.ofList_toList]

/-- Behind an equals sign any directory can be given. -/
theorem read_joined (d : DirOption) {value : String} (filled : value ≠ "") (patterns : List String) :
    Options.read ((flag d ++ "=" ++ value) :: "--" :: patterns) =
      .ok (patterns.foldl Options.addPattern (withDir d value {})) := by
  have set : Options.setDir {} d value = .ok (withDir d value {}) :=
    setDir_eq_ok_iff.mpr ⟨filled, by cases d <;> rfl, rfl⟩
  rw [Options.read, readFrom_joined, set]
  rfl

/-! ## Blanks -/

/-- Nothing is trimmed off a directory without blanks at its ends, and only off such a one. -/
theorem trimmed_eq_self_iff {value : String} : trimmed value = value ↔ Trimmed value.toList := by
  rw [trimmed, ← String.toList_inj, String.toList_ofList]
  constructor
  · intro same
    rw [← same]
    exact trimmed_trimBlanks _
  · exact trimBlanks_trimmed

/-- Nothing is left of blanks, and only of them. -/
theorem trimmed_eq_empty_iff {value : String} : trimmed value = "" ↔ Blanks value.toList := by
  rw [trimmed, ← String.toList_inj, String.toList_ofList]
  constructor
  · intro nothing c member
    rw [trimBlanks_eq, String.toList_empty, List.rdropWhile_eq_nil_iff] at nothing
    rw [← List.takeWhile_append_dropWhile (p := isBlank) (l := value.toList), List.mem_append] at member
    exact member.elim List.mem_takeWhile_imp (nothing c)
  · exact trimBlanks_blanks

/-! ## Entries -/

/-- The variable that an option stands for. -/
def sought : DirOption → Sought
  | .root => .root
  | .builtin => .builtin

/-- The entry of a directory gives it to its own variable only. -/
theorem entryValue?_entry (d e : DirOption) (value : String) :
    entryValue? (sought d).key ((sought e).key ++ "=" ++ value) =
      if d = e then some value else none := by
  split
  · rename_i same
    subst same
    exact (entryValue?_eq_some_iff (sought d).key_plain).mpr (by simp [Gives])
  · rename_i other
    refine (entryValue?_eq_none_iff (sought d).key_plain).mpr fun text gives => ?_
    revert gives other
    cases d <;> cases e <;> simp [Gives, sought, Sought.key, rootKey, builtinKey]

/-- A directory on the command line is what the last entry for its variable gives. -/
theorem environment_gives {o : Options} (request : Request) {d : DirOption} {value : String}
    (given : given? d o = some value) :
    (o.environment request).reverse.findSome? (entryValue? (sought d).key) = some value := by
  have own := (entryValue?_entry d d value).trans (if_pos rfl)
  have apart : DirOption.root ≠ .builtin := by decide
  simp only [Options.environment, List.reverse_append, List.findSome?_append]
  cases d with
  | root =>
    rw [show o.root? = some value from given]
    cases o.builtin? with
    | none =>
      simp only [sought, Sought.key] at own ⊢
      simp [own]
    | some dir =>
      have foreign := (entryValue?_entry .root .builtin dir).trans (if_neg apart)
      simp only [sought, Sought.key] at own foreign ⊢
      simp [own, foreign]
  | builtin =>
    rw [show o.builtin? = some value from given]
    simp only [sought, Sought.key] at own ⊢
    simp [own]

variable (host : Host) (architecture : String) (o : Options) (request : Request)

/-- A look-up gives the directory without the blanks at its ends, if anything is left. -/
theorem lookup_given {o : Options} {d : DirOption} {value : String}
    (given : given? d o = some value) :
    host.lookup (o.environment request) (sought d).key =
      if trimmed value = "" then none else some (trimmed value) := by
  rw [Host.lookup, lookupEnv, environment_gives request given, Option.some_or, Option.map_some,
    Option.filter_some]
  by_cases nothing : trimmed value = ""
  · rw [if_pos nothing, nothing]
    rfl
  · simp [nothing]

/-! ## Settings -/

/-- A call answers the variable, or else what is kept, or else a guess. -/
theorem ask_dir? (c : Call) (guesses : Guesses) : (c.ask guesses).result.dir? =
    ((c.host.lookup c.entries c.sought.key).map Path.mk).or
      ((c.sought.kept? guesses).or c.guess?) := by
  cases found : c.host.lookup c.entries c.sought.key with
  | some value =>
    rw [Call.ask_set ((c.lookup_eq_some_iff value).mp found), answer_dir?]
    rfl
  | none =>
    have unset := c.lookup_eq_none_iff.mp found
    cases kept : c.sought.kept? guesses with
    | some dir =>
      rw [Call.ask_kept unset kept, answer_dir?]
      rfl
    | none =>
      rw [(Call.ask_guess unset kept).1, answer_dir?]
      rfl

/-- The settings that a run loads with. -/
def settingsOf : Settings :=
  { (host.settings architecture (o.environment request) {}).result with
    withExamples := !o.flags.contains .noExamples }

/-- The directory that settings have for an option. -/
def dirOf : DirOption → Settings → Option Path
  | .root, settings => settings.root?
  | .builtin, settings => some settings.builtinDir

/-- The directory for an option that no variable is set for. -/
def guessed? : DirOption → Host → Option Path
  | .root, host => host.guessRoot.dir?
  | .builtin, host => some (host.guessBuiltin.dir?.getD host.shippedBuiltinDir)

theorem dirOf_settings (d : DirOption) : dirOf d (settingsOf host architecture o request) =
    ((host.lookup (o.environment request) (sought d).key).map Path.mk).or (guessed? d host) := by
  cases d with
  | root => exact ask_dir? ⟨.root, host, o.environment request⟩ {}
  | builtin =>
    -- Looking for the root keeps nothing for the other directory.
    have fresh : Sought.builtin.kept?
        (Call.ask ⟨.root, host, o.environment request⟩ {}).guesses = none :=
      (kept_step {} ⟨.root, host, o.environment request⟩ .builtin).trans (by simp [made?, Sought.kept?])
    have found := ask_dir? ⟨.builtin, host, o.environment request⟩
      (Call.ask ⟨.root, host, o.environment request⟩ {}).guesses
    rw [fresh, Option.none_or] at found
    have shipped : dirOf .builtin (settingsOf host architecture o request) =
        some ((Call.ask ⟨.builtin, host, o.environment request⟩
          (Call.ask ⟨.root, host, o.environment request⟩ {}).guesses).result.dir?.getD
            host.shippedBuiltinDir) := rfl
    rw [shipped, found]
    change some ((((host.lookup (o.environment request) builtinKey).map Path.mk).or
      host.guessBuiltin.dir?).getD _) = ((host.lookup (o.environment request) builtinKey).map Path.mk).or _
    cases host.lookup (o.environment request) builtinKey <;> rfl

section Given

variable {o} {d : DirOption} {value : String}

/-- A directory that is given is the one in the settings, without the blanks at its ends. -/
theorem dirOf_visible (given : given? d o = some value) (shows : ¬ Blanks value.toList) :
    dirOf d (settingsOf host architecture o request) = some ⟨trimmed value⟩ := by
  rw [dirOf_settings, lookup_given host request given, if_neg (mt trimmed_eq_empty_iff.mp shows)]
  rfl

/-- If it is blank, they have a guess. -/
theorem dirOf_blank (given : given? d o = some value) (blank : Blanks value.toList) :
    dirOf d (settingsOf host architecture o request) = guessed? d host := by
  rw [dirOf_settings, lookup_given host request given, if_pos (trimmed_eq_empty_iff.mpr blank)]
  rfl

end Given

/-- What loading comes to. -/
def outcomeOf : Except LoadError Response → Outcome
  | .ok r => .response r
  | .error why => .failed why

theorem run_eq {arguments : List String} {input : Bytes}
    (read : Options.read arguments = .ok o) (asked : Request.read input = .ok request) :
    run host architecture arguments input =
      outcomeOf (load host.disk (settingsOf host architecture o request) request.overlay o.patterns) := by
  rw [run, read, asked]
  rfl

/-- A run that is given a directory on its command line loads with that directory without the blanks
at its ends, whatever the entries of the request and the variables of the process say; if it is blank
it loads with a guess. So the directory is used as it is given unless it starts or ends with a blank,
and every directory can be given. -/
theorem directories_override (d : DirOption) {value : String} (filled : value ≠ "") (host : Host)
    (inherited : String → Option String) (architecture : String) :
    (∀ patterns, Options.read ((flag d ++ "=" ++ value) :: "--" :: patterns) =
      .ok (patterns.foldl Options.addPattern (withDir d value {}))) ∧
    ∀ arguments input o request, Options.read arguments = .ok o → GivesDir d value arguments →
      Request.read input = .ok request →
      let settings := settingsOf { host with processValue? := inherited } architecture o request
      run { host with processValue? := inherited } architecture arguments input =
          outcomeOf (load host.disk settings request.overlay o.patterns) ∧
        (¬ Blanks value.toList → dirOf d settings = some ⟨trimmed value⟩) ∧
        (Blanks value.toList → dirOf d settings = guessed? d host) ∧
        (dirOf d settings = some ⟨value⟩ ↔
          Trimmed value.toList ∨ Blanks value.toList ∧ guessed? d host = some ⟨value⟩) := by
  refine ⟨read_joined d filled, fun arguments input o request read gives asked => ?_⟩
  have given := reads_gives (readFrom_reads {} arguments read) gives
  have visible := dirOf_visible { host with processValue? := inherited } architecture request given
  have hidden (blank : Blanks value.toList) : dirOf d (settingsOf
      { host with processValue? := inherited } architecture o request) = guessed? d host :=
    (dirOf_blank _ architecture request given blank).trans (by cases d <;> rfl)
  refine ⟨run_eq _ architecture o request read asked, visible, hidden, ?_⟩
  by_cases blank : Blanks value.toList
  · have padded : ¬ Trimmed value.toList := fun trimmed => filled <|
      (trimmed_eq_self_iff.mpr trimmed).symm.trans (trimmed_eq_empty_iff.mpr blank)
    rw [hidden blank, iff_false_intro padded, false_or, and_iff_right blank]
  · simp only [visible blank, Option.some.injEq, Path.mk.injEq, trimmed_eq_self_iff, blank, false_and,
      or_false]

/-- A request with entries for both variables. -/
def settledInput : Bytes := utf8Bytes "\x7b\"Env\":[\"GNOROOT=/g\",\"GNOBUILTIN=/b\"]\x7d"

def settledRequest : Request := { env := ["GNOROOT=/g", "GNOBUILTIN=/b"] }

theorem settled_read : Request.read settledInput = .ok settledRequest := by
  decide +kernel

/-- A root with an equals sign and a blank inside, against an entry of the request and a variable of the
process. -/
theorem spaced_root_used :
    let arguments := ["-v", "--gno-root", "/a=b c", "--", "--gno-root=/x"]
    let o : Options := { patterns := ["--gno-root=/x"], flags := [.verbose], root? := some "/a=b c" }
    let settings :=
      settingsOf { bareHost with processValue? := fun _ => some "/p" } "amd64" o settledRequest
    "/a=b c" ≠ "" ∧ Options.read arguments = .ok o ∧ GivesDir .root "/a=b c" arguments ∧
      Request.read settledInput = .ok settledRequest ∧ Trimmed "/a=b c".toList ∧
      dirOf .root settings = some ⟨"/a=b c"⟩ ∧ dirOf .builtin settings = some ⟨"/b"⟩ := by
  intro arguments o settings
  have filled : "/a=b c" ≠ "" := by decide
  have read : Options.read arguments = .ok o := by decide +kernel
  have gives : GivesDir .root "/a=b c" arguments := .inr (.inr ⟨by decide, .inr (.inl ⟨rfl, rfl⟩)⟩)
  have bare : Trimmed "/a=b c".toList := trimmed_eq_self_iff.mp (by decide +kernel)
  have used := (directories_override .root filled bareHost (fun _ => some "/p") "amd64").2
    arguments settledInput o settledRequest read gives settled_read
  exact ⟨filled, read, gives, settled_read, bare, used.2.2.2.mpr (.inl bare), by decide +kernel⟩

/-- A blank in front of a builtin directory is lost, and a blank root hides the entry of the request
and stands for none. -/
theorem blanks_lost :
    run bareHost "amd64" ["--builtin-dir", " /b", "builtin"] settledInput =
        .response { packages := [builtinPackage ⟨"/b"⟩], roots := ["builtin"], architecture := "amd64" } ∧
      builtinPackage ⟨"/b"⟩ ≠ builtinPackage ⟨" /b"⟩ ∧
      Options.read ["--gno-root", " "] = .ok { root? := some " " } ∧
      dirOf .root (settingsOf bareHost "amd64" { root? := some " " } settledRequest) = none ∧
      dirOf .root (settingsOf bareHost "amd64" {} settledRequest) = some ⟨"/g"⟩ := by
  decide +kernel

end PackageLoader.DirectoryFlags
