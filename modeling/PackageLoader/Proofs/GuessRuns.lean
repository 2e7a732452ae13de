import PackageLoader.Installation.Guess
import PackageLoader.Proofs.TextCutting

/-! Guesses over any sequence of calls, each in surroundings of its own. A variable that is set goes
past the guesses that are kept; without one the first guess that succeeds answers every later call,
and a guess that fails leaves no trace. The root and the builtin directory are kept apart. -/
namespace PackageLoader.GuessRuns
open Text TextCutting

/-! ## Variables -/

/-- An entry `KEY=VALUE` gives a value to a key. -/
def Gives (key entry value : String) : Prop :=
  entry.toList = key.toList ++ '=' :: value.toList

/-- What a key stands for before blanks are dropped: what the last entry for it gives, or the variable
of the process if no entry is for it. -/
inductive Stands (entries : List String) (processValue? : String → Option String)
    (key value : String) : Prop where
  | entry (before : List String) (last : String) (behind : List String)
      (whole : entries = before ++ last :: behind) (gives : Gives key last value)
      (others : ∀ later ∈ behind, ∀ other, ¬ Gives key later other)
  | process (others : ∀ entry ∈ entries, ∀ other, ¬ Gives key entry other)
      (inherited : processValue? key = some value)

theorem entryValue?_eq_some_iff {key entry value : String} (plain : '=' ∉ key.toList) :
    entryValue? key entry = some value ↔ Gives key entry value := by
  unfold entryValue? Gives
  constructor
  · intro given
    split at given
    · rename_i name text found
      obtain ⟨whole, -⟩ := cut?_char_eq_some_iff.mp found
      split at given
      · rename_i same
        cases given
        rw [whole, same, String.toList_ofList]
      · cases given
    · cases given
  · intro whole
    rw [cut?_char_eq_some_iff.mpr ⟨whole, plain⟩]
    simp

theorem entryValue?_eq_none_iff {key entry : String} (plain : '=' ∉ key.toList) :
    entryValue? key entry = none ↔ ∀ value, ¬ Gives key entry value := by
  simp only [Option.eq_none_iff_forall_ne_some, ne_eq, entryValue?_eq_some_iff plain]

/-- A look-up gives what the key stands for, without blanks at the ends and unless nothing is left. -/
theorem lookupEnv_eq_some_iff {entries : List String} {processValue? : String → Option String}
    {key value : String} (plain : '=' ∉ key.toList) :
    lookupEnv entries processValue? key = some value ↔
      ∃ text, Stands entries processValue? key text ∧ trimmed text = value ∧ value ≠ "" := by
  have stands (text : String) : (entries.reverse.findSome? (entryValue? key)).or (processValue? key) =
      some text ↔ Stands entries processValue? key text := by
    rw [Option.or_eq_some_iff, List.findSome?_eq_some_iff, List.findSome?_eq_none_iff]
    constructor
    · rintro (⟨behind, last, before, whole, given, others⟩ | ⟨others, inherited⟩)
      · refine .entry before.reverse last behind.reverse ?_ ((entryValue?_eq_some_iff plain).mp given)
          fun later member => (entryValue?_eq_none_iff plain).mp
            (others later (List.mem_reverse.mp member))
        rw [← List.reverse_inj, whole]
        simp
      · exact .process (fun entry member => (entryValue?_eq_none_iff plain).mp
          (others entry (List.mem_reverse.mpr member))) inherited
    · rintro (⟨before, last, behind, whole, gives, others⟩ | ⟨others, inherited⟩)
      · refine Or.inl ⟨behind.reverse, last, before.reverse, by simp [whole],
          (entryValue?_eq_some_iff plain).mpr gives, fun later member => ?_⟩
        exact (entryValue?_eq_none_iff plain).mpr (others later (List.mem_reverse.mp member))
      · exact Or.inr ⟨fun entry member => (entryValue?_eq_none_iff plain).mpr
          (others entry (List.mem_reverse.mp member)), inherited⟩
  simp only [lookupEnv, Option.filter_eq_some_iff, Option.map_eq_some_iff, stands]
  constructor
  · rintro ⟨⟨text, stands, same⟩, filled⟩
    exact ⟨text, stands, same, by simpa using filled⟩
  · rintro ⟨text, stands, same, filled⟩
    exact ⟨⟨text, stands, same⟩, by simpa using filled⟩

/-! ## Calls -/

/-- What a call looks for. -/
inductive Sought where
  | root
  | builtin
  deriving DecidableEq

namespace Sought

/-- The variable that settles the matter. -/
def key : Sought → String
  | root => rootKey
  | builtin => builtinKey

/-- The module that the build tool is asked about. -/
def module : Sought → String
  | root => rootModule
  | builtin => builtinModule

/-- The guess that is kept. -/
def kept? : Sought → Guesses → Option Path
  | root, guesses => guesses.root?
  | builtin, guesses => guesses.builtin?

/-- A guess in the given surroundings. -/
def guess : Sought → Host → Guess
  | root, host => host.guessRoot
  | builtin, host => host.guessBuiltin

/-- Every guess asks the build tool once. -/
theorem guess_asked (s : Sought) (host : Host) : (s.guess host).asked = [s.module] := by
  cases s <;> rfl

theorem key_plain (s : Sought) : '=' ∉ s.key.toList := by
  cases s <;> decide

end Sought

/-- What a call answers. Without a root there is an error; a builtin directory may be missing. -/
inductive Answer where
  | root (result : Except ModuleError Path)
  | builtin (result : Option Path)

/-- The directory that was found. -/
def Answer.dir? : Answer → Option Path
  | root result => result.toOption
  | builtin result => result

/-- The answer with a directory, or without one. -/
def Sought.answer : Sought → Option Path → Answer
  | root, some dir => .root (.ok dir)
  | root, none => .root (.error .noRoot)
  | builtin, dir? => .builtin dir?

@[simp] theorem answer_dir? (s : Sought) (dir? : Option Path) : (s.answer dir?).dir? = dir? := by
  cases s <;> cases dir? <;> rfl

/-- A call: what it looks for, the host as it is at that time, and the entries of the request. -/
structure Call where
  sought : Sought
  host : Host
  entries : List String

namespace Call

/-- What a call answers, keeps and asks the build tool about. -/
def ask (c : Call) (guesses : Guesses) : Finding Answer :=
  match c.sought with
  | .root =>
    let found := c.host.findRoot c.entries guesses
    ⟨.root found.result, found.guesses, found.asked⟩
  | .builtin =>
    let found := c.host.findBuiltin c.entries guesses
    ⟨.builtin found.result, found.guesses, found.asked⟩

/-- The guess that a call would make. -/
def guess? (c : Call) : Option Path :=
  (c.sought.guess c.host).dir?

/-- The variable of a call is set to a value. -/
def Sets (c : Call) (value : String) : Prop :=
  ∃ text, Stands c.entries c.host.processValue? c.sought.key text ∧ trimmed text = value ∧ value ≠ ""

theorem lookup_eq_some_iff (c : Call) (value : String) :
    c.host.lookup c.entries c.sought.key = some value ↔ c.Sets value :=
  lookupEnv_eq_some_iff c.sought.key_plain

theorem lookup_eq_none_iff (c : Call) :
    c.host.lookup c.entries c.sought.key = none ↔ ∀ value, ¬ c.Sets value := by
  simp only [Option.eq_none_iff_forall_ne_some, ne_eq, lookup_eq_some_iff]

/-- A variable that is set is the answer whatever is kept, and nothing else happens. -/
theorem ask_set {c : Call} {value : String} (sets : c.Sets value) (guesses : Guesses) :
    c.ask guesses = { result := c.sought.answer (some ⟨value⟩), guesses := guesses } := by
  have found := (c.lookup_eq_some_iff value).mpr sets
  obtain ⟨sought, host, entries⟩ := c
  cases sought <;>
    simp only [ask, Sought.key] at found ⊢ <;>
    simp only [Host.findRoot, Host.findBuiltin, found, Sought.answer]

/-- Without a variable, a guess that is kept is the answer and nothing else happens. -/
theorem ask_kept {c : Call} {guesses : Guesses} {dir : Path} (unset : ∀ value, ¬ c.Sets value)
    (kept : c.sought.kept? guesses = some dir) :
    c.ask guesses = { result := c.sought.answer (some dir), guesses := guesses } := by
  have missing := c.lookup_eq_none_iff.mpr unset
  obtain ⟨sought, host, entries⟩ := c
  cases sought <;>
    simp only [ask, Sought.key, Sought.kept?] at missing kept ⊢ <;>
    simp only [Host.findRoot, Host.findBuiltin, missing, kept, Sought.answer]

/-- Without a variable and without a guess, a guess is made. What it finds is kept, and what is kept
for the other sort of calls stays. -/
theorem ask_guess {c : Call} {guesses : Guesses} (unset : ∀ value, ¬ c.Sets value)
    (kept : c.sought.kept? guesses = none) :
    (c.ask guesses).result = c.sought.answer c.guess? ∧
      (c.ask guesses).asked = [c.sought.module] ∧
      c.sought.kept? (c.ask guesses).guesses = c.guess? ∧
      (∀ s, s ≠ c.sought → s.kept? (c.ask guesses).guesses = s.kept? guesses) := by
  have missing := c.lookup_eq_none_iff.mpr unset
  obtain ⟨sought, host, entries⟩ := c
  cases sought with
  | root =>
    simp only [Sought.key, Sought.kept?] at missing kept
    have asked : host.guessRoot.asked = _ := Sought.root.guess_asked host
    simp only [ask, Host.findRoot, missing, kept, guess?, Sought.guess]
    cases host.guessRoot.dir? with
    | none => exact ⟨rfl, asked, kept, fun s other => rfl⟩
    | some dir =>
      refine ⟨rfl, asked, rfl, fun s other => ?_⟩
      cases s with
      | root => exact absurd rfl other
      | builtin => rfl
  | builtin =>
    simp only [Sought.key, Sought.kept?] at missing kept
    simp only [ask, Host.findBuiltin, missing, kept, guess?, Sought.guess]
    refine ⟨rfl, Sought.builtin.guess_asked host, rfl, fun s other => ?_⟩
    cases s with
    | root => rfl
    | builtin => exact absurd rfl other

end Call

/-- Guesses are known by what is kept for either sort of calls. -/
theorem guesses_ext {a b : Guesses} (same : ∀ s : Sought, s.kept? a = s.kept? b) : a = b := by
  cases a
  cases b
  cases same .root
  cases same .builtin
  rfl

/-! ## Runs -/

/-- What is kept behind calls one after the other. -/
def keptAfter (seed : Guesses) (calls : List Call) : Guesses :=
  calls.foldl (fun guesses c => (c.ask guesses).guesses) seed

/-- Calls one after the other, each with what it found. -/
def history (seed : Guesses) : List Call → List (Call × Finding Answer)
  | [] => []
  | c :: rest => (c, c.ask seed) :: history (c.ask seed).guesses rest

/-- The guess that a call made, if it made one that succeeded. -/
def made? (s : Sought) (event : Call × Finding Answer) : Option Path :=
  if event.1.sought = s ∧ event.2.asked ≠ [] then event.2.result.dir? else none

/-- What calls of a sort are to remember: what the cache was seeded with, or else the first guess that
succeeded. -/
def remembered? (seed : Guesses) (calls : List Call) (s : Sought) : Option Path :=
  (s.kept? seed).or ((history seed calls).findSome? (made? s))

/-- What calls of a sort answered and asked the build tool about. -/
def shown (s : Sought) (events : List (Call × Finding Answer)) : List (Answer × List String) :=
  (events.filter (·.1.sought = s)).map fun event => (event.2.result, event.2.asked)

/-- One call keeps what is remembered, and nothing but a guess of its sort that succeeds is new. -/
theorem kept_step (guesses : Guesses) (c : Call) (s : Sought) :
    s.kept? (c.ask guesses).guesses = (s.kept? guesses).or (made? s (c, c.ask guesses)) := by
  by_cases sets : ∃ value, c.Sets value
  · obtain ⟨value, sets⟩ := sets
    simp [Call.ask_set sets, made?]
  have unset := not_exists.mp sets
  cases kept : c.sought.kept? guesses with
  | some dir => simp [Call.ask_kept unset kept, made?]
  | none =>
    obtain ⟨answer, asked, own, others⟩ := Call.ask_guess unset kept
    by_cases same : s = c.sought
    · subst same
      simp [made?, own, answer, asked, kept]
    · simp [made?, others s same, Ne.symm same]

/-- What is kept is what is to be remembered. -/
theorem kept_after (seed : Guesses) (calls : List Call) (s : Sought) :
    s.kept? (keptAfter seed calls) = remembered? seed calls s := by
  unfold remembered?
  induction calls generalizing seed with
  | nil => simp [keptAfter, history]
  | cons c rest ih =>
    have later := ih (c.ask seed).guesses
    rw [kept_step, Option.or_assoc] at later
    rw [history, List.findSome?_cons]
    refine later.trans (congrArg _ ?_)
    cases made? s (c, c.ask seed) <;> rfl

theorem history_append (seed : Guesses) (earlier later : List Call) :
    history seed (earlier ++ later) =
      history seed earlier ++ history (keptAfter seed earlier) later := by
  induction earlier generalizing seed with
  | nil => rfl
  | cons c rest ih => rw [List.cons_append, history, ih, history]; rfl

/-- Two calls that differ at most in what is kept for the other sort do the same. -/
theorem ask_alike {a b : Guesses} {c : Call} (same : c.sought.kept? a = c.sought.kept? b) :
    (c.ask a).result = (c.ask b).result ∧ (c.ask a).asked = (c.ask b).asked := by
  by_cases sets : ∃ value, c.Sets value
  · obtain ⟨value, sets⟩ := sets
    simp [Call.ask_set sets]
  have unset := not_exists.mp sets
  cases kept : c.sought.kept? b with
  | some dir => simp [Call.ask_kept unset kept, Call.ask_kept unset (same.trans kept)]
  | none =>
    obtain ⟨answer, asked, -⟩ := Call.ask_guess unset kept
    obtain ⟨answer', asked', -⟩ := Call.ask_guess unset (same.trans kept)
    exact ⟨answer'.trans answer.symm, asked'.trans asked.symm⟩

/-- What calls of one sort do depends on no call of the other sort and on nothing kept for it. -/
theorem shown_alone {a b : Guesses} {s : Sought} (same : s.kept? a = s.kept? b) (calls : List Call) :
    shown s (history a calls) = shown s (history b (calls.filter (·.sought = s))) := by
  induction calls generalizing a b with
  | nil => rfl
  | cons c rest ih =>
    by_cases own : c.sought = s
    · subst own
      obtain ⟨answer, asked⟩ := ask_alike same
      have later : c.sought.kept? (c.ask a).guesses = c.sought.kept? (c.ask b).guesses := by
        rw [kept_step, kept_step, same, made?, made?, answer, asked]
      rw [List.filter_cons_of_pos (by simp), history, history, shown, shown,
        List.filter_cons_of_pos (by simp), List.filter_cons_of_pos (by simp), List.map_cons,
        List.map_cons, answer, asked]
      exact congrArg _ (ih later)
    · have later : s.kept? (c.ask a).guesses = s.kept? b := by
        rw [kept_step, made?, if_neg (fun both => own both.1), Option.or_none, same]
      rw [List.filter_cons_of_neg (by simpa using own), history, shown,
        List.filter_cons_of_neg (by simpa using own)]
      exact ih later

/-- Wherever a call stands in a run: if its variable is set, the call answers the value whatever is
kept, keeps everything as it is and asks nobody. Otherwise it answers what the cache was seeded with
or else the first guess that succeeded before it, again without a trace; and only if there is neither
does it make a guess, of which nothing is kept if it fails. The calls for the root and those for the
builtin directory do what they would do without the others. -/
theorem run_remembers_first_guess (seed : Guesses) (earlier later : List Call) (c : Call) :
    history seed (earlier ++ c :: later) =
        history seed earlier ++ (c, c.ask (keptAfter seed earlier)) ::
          history (keptAfter seed (earlier ++ [c])) later ∧
      (∀ value, c.Sets value → ∀ guesses,
        c.ask guesses = { result := c.sought.answer (some ⟨value⟩), guesses := guesses, asked := [] }) ∧
      ((∀ value, ¬ c.Sets value) →
        (∀ dir, remembered? seed earlier c.sought = some dir →
          c.ask (keptAfter seed earlier) =
            { result := c.sought.answer (some dir), guesses := keptAfter seed earlier, asked := [] }) ∧
        (remembered? seed earlier c.sought = none →
          (c.ask (keptAfter seed earlier)).result = c.sought.answer c.guess? ∧
          (c.ask (keptAfter seed earlier)).asked = [c.sought.module] ∧
          (c.guess? = none → keptAfter seed (earlier ++ [c]) = keptAfter seed earlier))) ∧
      ∀ s other, s.kept? other = s.kept? seed →
        shown s (history seed (earlier ++ c :: later)) =
          shown s (history other ((earlier ++ c :: later).filter (·.sought = s))) := by
  have step : keptAfter seed (earlier ++ [c]) = (c.ask (keptAfter seed earlier)).guesses := by
    simp [keptAfter]
  refine ⟨?_, fun value sets => Call.ask_set sets, fun unset => ⟨fun dir first => ?_, fun fresh => ?_⟩,
    fun s other same => shown_alone same.symm _⟩
  · rw [history_append, history, step]
  · exact Call.ask_kept unset ((kept_after ..).trans first)
  · obtain ⟨answer, asked, own, others⟩ := Call.ask_guess unset ((kept_after ..).trans fresh)
    refine ⟨answer, asked, fun failed => ?_⟩
    rw [step]
    refine guesses_ext fun s => ?_
    by_cases same : s = c.sought
    · rw [same, own, failed, kept_after, fresh]
    · exact others s same

/-- A host where nothing can be guessed. -/
def bareHost : Host where
  disk := .empty
  processValue? := fun _ => none
  moduleOutput? := fun _ => none
  programDir? := none
  shippedBuiltinDir := ⟨"/shipped"⟩

/-- A host with an installation that the build tool knows. -/
def installedHost : Host where
  disk := {
    root := [("g", .directory [("gnovm", .directory [("stdlibs", .directory [])])])]
    ordered := .directory (by decide) (by
      simp only [List.mem_cons, List.not_mem_nil, or_false, forall_eq]
      exact .directory (by decide) (by
        simp only [List.mem_cons, List.not_mem_nil, or_false, forall_eq]
        exact .directory (by decide) (by
          simp only [List.mem_cons, List.not_mem_nil, or_false, forall_eq]
          exact .directory .nil (by simp))))
    workingDir := [] }
  processValue? := fun _ => none
  moduleOutput? := fun _ => some (utf8Bytes "/g\n")
  programDir? := none
  shippedBuiltinDir := ⟨"/shipped"⟩

/-- Two guesses at the root that fail and one that succeeds, then one call with a variable. -/
def sampleCalls : List Call :=
  [⟨.root, bareHost, []⟩, ⟨.builtin, installedHost, []⟩, ⟨.root, bareHost, ["GNOROOT= "]⟩,
    ⟨.root, installedHost, []⟩, ⟨.root, bareHost, ["GNOROOT=/x", "GNOROOT= /h=1 "]⟩]

/-- Once the installation was found, it is the answer even where nothing can be guessed; before that
a guess that fails leaves nothing, and a variable is the answer at any time. -/
theorem sample_remembers_first_guess :
    (∀ value, ¬ (Call.mk .root bareHost []).Sets value) ∧
      (Call.mk .root bareHost []).ask (keptAfter {} sampleCalls) =
        { result := .root (.ok ⟨"/g"⟩), guesses := keptAfter {} sampleCalls } ∧
      ((Call.mk .root bareHost []).ask {}).result = .root (.error .noRoot) ∧
      keptAfter {} [⟨.root, bareHost, []⟩] = {} ∧
      (Call.mk .root bareHost ["GNOROOT=/x", "GNOROOT= /h=1 "]).ask {} =
        { result := .root (.ok ⟨"/h=1"⟩), guesses := {} } := by
  have unset : ∀ value, ¬ (Call.mk .root bareHost []).Sets value :=
    (Call.lookup_eq_none_iff _).mp (by decide +kernel)
  have sets : (Call.mk .root bareHost ["GNOROOT=/x", "GNOROOT= /h=1 "]).Sets "/h=1" :=
    (Call.lookup_eq_some_iff _ _).mp (by decide +kernel)
  have late := (run_remembers_first_guess {} sampleCalls [] ⟨.root, bareHost, []⟩).2.2.1 unset
  have early := (run_remembers_first_guess {} [] [] ⟨.root, bareHost, []⟩).2.2.1 unset
  obtain ⟨failed, -, forgotten⟩ := early.2 rfl
  have nothing : (Call.mk .root bareHost []).guess? = none := by decide +kernel
  refine ⟨unset, late.1 ⟨"/g"⟩ (by decide +kernel), ?_, forgotten nothing, ?_⟩
  · rw [nothing] at failed
    exact failed
  · exact (run_remembers_first_guess {} [] [] _).2.1 "/h=1" sets {}

end PackageLoader.GuessRuns
