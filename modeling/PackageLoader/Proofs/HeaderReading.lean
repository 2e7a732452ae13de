import PackageLoader.Proofs.HeaderGrammar

/-! Reading a header follows the stages of its grammar: each reader goes from one stage to another,
or fails at the first token that the stage it has come to refuses. So the reader accepts exactly the
texts that start with a header, and at an error it has read as much as any header could. -/
namespace PackageLoader.HeaderReading
open HeaderGrammar

/-! ## Readers as ways through the stages -/

/-- The front of the tokens leads from one stage to another and completes these specs. -/
def Reads (q : Stage) (ts : List Token) (next : Stage) (found : List ImportSpec)
    (rest : List Token) : Prop :=
  ∃ steps, Walk q steps next ∧ specs steps = found ∧ ts = tokens steps ++ rest

/-- The front of the tokens leads to a stage that refuses the token at this place. By then these
specs and, if there is one, this package clause are complete. -/
def Fails (q : Stage) (ts : List Token) (clause? : Option PackageClause) (found : List ImportSpec)
    (place : Span) : Prop :=
  ∃ steps stage t rest, Walk q steps stage ∧ (∀ p, stage ≠ .finished p) ∧ stage.Refuses t ∧
    stage.package? = clause? ∧ specs steps = found ∧ ts = tokens steps ++ t :: rest ∧ t.span = place

/-- What a reader makes of the tokens in front of the final one. The package clause is complete
before and behind it. -/
def Ends (last : Token) (q : Stage) (ts : List Token) (next : Stage) (found : List ImportSpec) :
    Except HeaderError (List Token) → Prop
  | .ok rest => Reads q ts next found rest
  | .error e => Fails q (ts ++ [last]) next.package? found e.span

theorem Reads.nil {q : Stage} {ts : List Token} : Reads q ts q [] ts :=
  ⟨[], .nil, rfl, rfl⟩

theorem Reads.single {q next : Stage} {s : Step} {rest : List Token} (move : Move q s next) :
    Reads q (s.token :: rest) next s.spec?.toList rest :=
  ⟨[s], .single move, by cases spec : s.spec? <;> simp [specs, spec], rfl⟩

/-- A token of the right kind that completes no spec. -/
theorem Reads.word {q next : Stage} {kind : TokenKind} {t : Token} {rest : List Token}
    (move : ∀ place, Move q (word kind place) next) (same : t.kind = kind) :
    Reads q (t :: rest) next [] rest := by
  obtain ⟨_, place⟩ := t
  cases same
  exact .single (move place)

theorem Reads.then {q middle next : Stage} {ts rest others : List Token}
    {found more : List ImportSpec} (first : Reads q ts middle found rest)
    (second : Reads middle rest next more others) : Reads q ts next (found ++ more) others := by
  obtain ⟨a, walk, rfl, rfl⟩ := first
  obtain ⟨b, further, rfl, rfl⟩ := second
  exact ⟨a ++ b, walk.append further, specs_append a b, by simp⟩

/-- What stands behind the tokens does not matter. -/
theorem Reads.append {q next : Stage} {ts rest : List Token} {found : List ImportSpec}
    (read : Reads q ts next found rest) (tail : List Token) :
    Reads q (ts ++ tail) next found (rest ++ tail) := by
  obtain ⟨steps, walk, rfl, rfl⟩ := read
  exact ⟨steps, walk, rfl, List.append_assoc _ _ _⟩

theorem Reads.fails {q middle : Stage} {ts rest : List Token} {clause? : Option PackageClause}
    {found more : List ImportSpec} {place : Span} (first : Reads q ts middle found rest)
    (second : Fails middle rest clause? more place) : Fails q ts clause? (found ++ more) place := by
  obtain ⟨a, walk, rfl, rfl⟩ := first
  obtain ⟨b, stage, t, others, further, running, refused, known, rfl, rfl, at_place⟩ := second
  exact ⟨a ++ b, stage, t, others, walk.append further, running, refused, known, specs_append a b,
    by simp, at_place⟩

theorem Reads.ends {last : Token} {q middle next : Stage} {ts rest : List Token}
    {found more : List ImportSpec} {result : Except HeaderError (List Token)}
    (first : Reads q ts middle found rest) (second : Ends last middle rest next more result) :
    Ends last q ts next (found ++ more) result := by
  cases result with
  | ok => exact first.then second
  | error => exact (first.append [last]).fails second

/-- A stage that refuses the current token. -/
theorem Fails.here {q : Stage} {ts rest : List Token} {t : Token} {clause? : Option PackageClause}
    {place : Span} (running : ∀ p, q ≠ .finished p) (known : q.package? = clause?)
    (refused : q.Refuses t) (current : ts = t :: rest) (at_place : place = t.span) :
    Fails q ts clause? [] place :=
  ⟨[], q, t, rest, .nil, running, refused, known, rfl, current, at_place.symm⟩

section Readers

variable {last : Token} (final : last.kind.isFinal = true)

theorem currentToken_append (last : Token) (ts : List Token) :
    ∃ rest, ts ++ [last] = currentToken last ts :: rest := by
  cases ts with
  | nil => exact ⟨[], rfl⟩
  | cons t rest => exact ⟨rest ++ [last], rfl⟩

theorem readKind_ok {kind : TokenKind} {wanted : Wanted} {ts rest : List Token} {place : Span}
    (ran : readKind last kind wanted ts = .ok (place, rest)) : ts = ⟨kind, place⟩ :: rest := by
  unfold readKind at ran
  split at ran
  · cases ran
  · split at ran
    · rename_i t _ same
      cases ran
      rw [← same]
    · cases ran

/-- A reader of one token stops at a current token of another kind. -/
theorem readKind_error {kind : TokenKind} {wanted : Wanted} {ts : List Token} {e : HeaderError}
    (different : last.kind ≠ kind) (ran : readKind last kind wanted ts = .error e) :
    ∃ t rest, ts ++ [last] = t :: rest ∧ t.kind ≠ kind ∧ e.span = t.span := by
  unfold readKind at ran
  split at ran
  · cases ran
    exact ⟨last, [], rfl, different, rfl⟩
  · split at ran
    · cases ran
    · rename_i t rest other
      cases ran
      exact ⟨t, rest ++ [last], rfl, other, rfl⟩

/-- Where reading stands behind what is in front of a path. -/
def aliasStage (p : PackageClause) (grouped : Bool) : Option (String × Span) → Stage
  | none => .spec p grouped
  | some named => .path p grouped named

theorem takeAlias_reads (p : PackageClause) (grouped : Bool) (ts : List Token) :
    Reads (.spec p grouped) ts (aliasStage p grouped (takeAlias ts).1) [] (takeAlias ts).2 := by
  unfold takeAlias
  split
  · exact .single .localName
  · exact .single .dot
  · exact .nil

include final in
/-- The final token is neither a word nor a literal nor a symbol. -/
theorem final_kind : (∀ name, last.kind ≠ .ident name) ∧
    (∀ kind text, last.kind ≠ .literal kind text) ∧ (∀ word, last.kind ≠ .keyword word) ∧
    ∀ s, last.kind ≠ .symbol s := by
  refine ⟨?_, ?_, ?_, ?_⟩ <;> intros <;> intro same <;> simp [same, TokenKind.isFinal] at final

include final in
/-- If nothing is in front of a path, then all tokens are left and the first is no name and no
dot. -/
theorem takeAlias_none (ts : List Token) (nothing : (takeAlias ts).1 = none) :
    (takeAlias ts).2 = ts ∧ (∀ name, (currentToken last ts).kind ≠ .ident name) ∧
      (currentToken last ts).kind ≠ .symbol .dot := by
  cases ts with
  | nil => exact ⟨rfl, (final_kind final).1, (final_kind final).2.2.2 .dot⟩
  | cons t rest =>
    unfold takeAlias at nothing ⊢
    split at nothing
    · cases nothing
    · cases nothing
    · rename_i noName noDot
      obtain ⟨kind, place⟩ := t
      refine ⟨rfl, ?_, ?_⟩
      · rintro name rfl
        exact noName _ _ _ rfl
      · rintro rfl
        exact noDot _ _ rfl

/-- The parenthesis that may stand in place of a spec: in a group the closing one. -/
def parenFor : Bool → Symbol
  | false => .lparen
  | true => .rparen

/-- A stage in front of a path refuses everything but a good path and what may come before it. -/
theorem aliasStage_refuses {p : PackageClause} {grouped : Bool} {named : Option (String × Span)}
    {t : Token}
    (noPath : ∀ text, t.kind = .literal .string text → isImportPath (unquote text) = false)
    (noFront : named = none → (∀ name, t.kind ≠ .ident name) ∧ t.kind ≠ .symbol .dot ∧
      t.kind ≠ .symbol (parenFor grouped)) : (aliasStage p grouped named).Refuses t := by
  rintro s next move rfl
  cases named with
  | none =>
    obtain ⟨noName, noDot, noParen⟩ := noFront rfl
    cases move with
    | opened => exact noParen rfl
    | closed => exact noParen rfl
    | localName => exact noName _ rfl
    | dot => exact noDot rfl
    | path valid => simp [noPath _ rfl] at valid
  | some named =>
    cases move with
    | namedPath valid => simp [noPath _ rfl] at valid

theorem aliasStage_running (p : PackageClause) (grouped : Bool) (named : Option (String × Span)) :
    (∀ q, aliasStage p grouped named ≠ .finished q) ∧
      (aliasStage p grouped named).package? = some p := by
  cases named <;> simp [aliasStage, Stage.package?]

/-- What the reader of a spec makes of the tokens in front of the final one. -/
def SpecEnds (last : Token) (q : Stage) (ts : List Token) (next : Stage) :
    Except HeaderError (ImportSpec × List Token) → Prop
  | .ok (spec, rest) => Reads q ts next [spec] rest
  | .error e => Fails q (ts ++ [last]) next.package? [] e.span

include final in
theorem readImportSpec_ends (p : PackageClause) (grouped : Bool) (ts : List Token)
    (noParen : (currentToken last ts).kind ≠ .symbol (parenFor grouped)) :
    SpecEnds last (.spec p grouped) ts (.behind p grouped) (readImportSpec last ts) := by
  have front := takeAlias_reads p grouped ts
  have unnamed := takeAlias_none final ts
  unfold readImportSpec
  generalize takeAlias ts = taken at front unnamed
  obtain ⟨named, after⟩ := taken
  simp only at front unnamed ⊢
  -- Only without a name or dot is the current token the first, which may be no parenthesis.
  have noFront (nothing : named = none) : (∀ name, (currentToken last after).kind ≠ .ident name) ∧
      (currentToken last after).kind ≠ .symbol .dot ∧
      (currentToken last after).kind ≠ .symbol (parenFor grouped) := by
    obtain ⟨rfl, noName, noDot⟩ := unnamed nothing
    exact ⟨noName, noDot, noParen⟩
  obtain ⟨running, known⟩ := aliasStage_running p grouped named
  split
  · rename_i literal place rest
    split
    · rename_i valid
      have move : Move (aliasStage p grouped named) (pathStep named literal place)
          (.behind p grouped) := by
        cases named with
        | none => exact .path valid
        | some => exact .namedPath valid
      exact front.then (.single move)
    · rename_i invalid
      refine (front.append [last]).fails
        (.here running known (aliasStage_refuses ?_ noFront) rfl rfl)
      rintro _ ⟨⟩
      simpa using invalid
  · rename_i noLiteral
    obtain ⟨rest, joined⟩ := currentToken_append last after
    refine (front.append [last]).fails
      (.here running known (aliasStage_refuses ?_ noFront) joined rfl)
    intro text literal
    cases after with
    | nil => cases (final_kind final).2.1 _ _ literal
    | cons t others =>
      obtain ⟨kind, place⟩ := t
      cases literal
      exact absurd rfl (noLiteral _ _ _)

theorem behind_refuses {p : PackageClause} {grouped : Bool} {t : Token} (noSemi : t.kind ≠ .semi)
    (noParen : grouped = true → t.kind ≠ .symbol .rparen) : (Stage.behind p grouped).Refuses t := by
  rintro s next move rfl
  cases move with
  | separated => exact noSemi rfl
  | closedBehind => exact noParen rfl rfl
  | declEnd => exact noSemi rfl

include final in
theorem readImportGroup_ends (p : PackageClause) (ts : List Token) :
    Ends last (.spec p true) ts (.behind p false) (readImportGroup last ts).1
      (readImportGroup last ts).2 := by
  obtain ⟨noName, noLiteral, -, noSymbol⟩ := final_kind final
  have inGroup {t : Token} {rest after : List Token} {spec : ImportSpec}
      (inside : t.kind ≠ .symbol .rparen)
      (ran : readImportSpec last (t :: rest) = .ok (spec, after)) :
      Reads (.spec p true) (t :: rest) (.behind p true) [spec] after := by
    have read := readImportSpec_ends final p true (t :: rest) inside
    rwa [ran] at read
  fun_induction readImportGroup last ts with
  | case1 =>
    have refused : (aliasStage p true none).Refuses last :=
      aliasStage_refuses (fun _ literal => absurd literal (noLiteral _ _))
        fun _ => ⟨noName, noSymbol _, noSymbol _⟩
    exact Fails.here (by simp) rfl refused rfl rfl
  | case2 t rest closed => exact .word (fun _ => .closed) closed
  | case3 t rest inside e ran =>
    have failed := readImportSpec_ends final p true (t :: rest) inside
    rw [ran] at failed
    exact failed
  | case4 t rest inside spec ran =>
    have refused : (Stage.behind p true).Refuses last :=
      behind_refuses (noSymbol _) fun _ => noSymbol _
    exact ((inGroup inside ran).append [last]).fails (.here (by simp) rfl refused rfl rfl)
  | case5 t rest inside spec separator more ran semi _ specs result others _ ih =>
    rw [others] at ih
    exact ((inGroup inside ran).then (.word (fun _ => .separated) semi)).ends ih
  | case6 t rest inside spec separator more ran _ closed =>
    exact (inGroup inside ran).then (.word (fun _ => .closedBehind) closed)
  | case7 t rest inside spec separator more ran noSemi noParen =>
    have refused : (Stage.behind p true).Refuses separator :=
      behind_refuses noSemi fun _ => noParen
    exact ((inGroup inside ran).append [last]).fails (.here (by simp) rfl refused rfl rfl)

include final in
theorem readImportDecl_ends (p : PackageClause) (ts : List Token) :
    Ends last (.spec p false) ts (.behind p false) (readImportDecl last ts).1
      (readImportDecl last ts).2 := by
  unfold readImportDecl
  split
  · rename_i place rest
    exact (Reads.single .opened).ends (readImportGroup_ends final p rest)
  · rename_i noParen
    have single : (currentToken last ts).kind ≠ .symbol (parenFor false) := by
      cases ts with
      | nil => exact (final_kind final).2.2.2 _
      | cons t rest =>
        obtain ⟨_, place⟩ := t
        rintro ⟨⟩
        exact noParen _ _ rfl
    have read := readImportSpec_ends final p false ts single
    split <;> rename_i ran <;> rw [ran] at read <;> exact read

/-- What reading all imports makes of the tokens in front of the final one: it finishes behind some
token, or fails. -/
def AllEnds (last : Token) (p : PackageClause) (ts : List Token) :
    List ImportSpec × Option HeaderError → Prop
  | (found, none) => ∃ rest, Reads (.decls p) (ts ++ [last]) (.finished p) found rest
  | (found, some e) => Fails (.decls p) (ts ++ [last]) (some p) found e.span

include final in
theorem readImports_ends (p : PackageClause) (ts : List Token) :
    AllEnds last p ts (readImports last ts) := by
  have inDecl {t : Token} (rest : List Token) (word : t.kind = .keyword .import_) :
      Ends last (.decls p) (t :: rest) (.behind p false) (readImportDecl last rest).1
        (readImportDecl last rest).2 :=
    (Reads.word (fun _ => .import_) word).ends (readImportDecl_ends final p rest)
  fun_induction readImports last ts with
  | case1 => exact ⟨_, .single (.finish ((final_kind final).2.2.1 _))⟩
  | case2 t rest word specs e ran =>
    have decl := inDecl rest word
    rw [ran] at decl
    exact decl
  | case3 t rest word specs after ran e failed =>
    have decl := inDecl rest word
    rw [ran] at decl
    obtain ⟨found, behind, joined, noSemi, place⟩ :=
      readKind_error ((final_kind final).2.2.2 .semi) failed
    have stopped : Fails (.behind p false) (after ++ [last]) (some p) [] e.span :=
      .here (by simp) rfl (behind_refuses noSemi (by simp)) joined place
    have whole := (decl.append [last]).fails stopped
    rw [List.append_nil] at whole
    exact whole
  | case4 t rest word specs after ran _ more done _ _ others error further ih =>
    have decl := inDecl rest word
    rw [ran, readKind_ok done] at decl
    rw [further] at ih
    have read := (decl.then (.word (fun _ => .declEnd) rfl)).append [last]
    rw [List.append_nil] at read
    cases error with
    | none => exact ih.imp fun _ finish => read.then finish
    | some e => exact read.fails ih
  | case5 t rest other => exact ⟨_, .single (.finish other)⟩

/-- What reading a package clause makes of the tokens in front of the final one. -/
def ClauseEnds (last : Token) (ts : List Token) :
    Except HeaderError (PackageClause × List Token) → Prop
  | .ok (p, rest) => Reads .start ts (.decls p) [] rest
  | .error e => Fails .start (ts ++ [last]) none [] e.span

include final in
theorem readPackageClause_ends (ts : List Token) :
    ClauseEnds last ts (readPackageClause last ts) := by
  obtain ⟨noName, -, noKeyword, noSymbol⟩ := final_kind final
  unfold readPackageClause
  cases first : readKind last (.keyword .package) .packageWord ts with
  | error e =>
    obtain ⟨t, rest, joined, noWord, place⟩ := readKind_error (noKeyword .package) first
    have refused : Stage.start.Refuses t := by
      rintro s next move rfl
      cases move
      exact noWord rfl
    exact Fails.here (by simp) rfl refused joined place
  | ok read =>
    obtain ⟨start, behind⟩ := read
    obtain rfl := readKind_ok first
    have word : Reads .start (⟨.keyword .package, start⟩ :: behind) (.name start) [] behind :=
      .single .package
    simp only [bind, Except.bind]
    split
    · rename_i name place rest
      have named := word.then (.single .name)
      cases second : readKind last .semi .separator rest with
      | error e =>
        obtain ⟨t, others, joined, noSemi, at_place⟩ := readKind_error (noSymbol .semi) second
        have refused : (Stage.clauseEnd ⟨name, start.through place⟩).Refuses t := by
          rintro s next move rfl
          cases move
          exact noSemi rfl
        exact (named.append [last]).fails (.here (by simp) rfl refused joined at_place)
      | ok read =>
        obtain ⟨stop, rest⟩ := read
        obtain rfl := readKind_ok second
        exact named.then (.single .clauseEnd)
    · rename_i noIdent
      obtain ⟨rest, joined⟩ := currentToken_append last behind
      have refused : (Stage.name start).Refuses (currentToken last behind) := by
        intro s next move same
        cases move
        cases behind with
        | nil => exact noName _ (congrArg Token.kind same.symm)
        | cons t others => exact noIdent _ _ _ (congrArg (· :: _) same.symm)
      exact (word.append [last]).fails (.here (by simp) rfl refused joined rfl)

end Readers

/-! ## Whole headers -/

/-- What reading a header makes of all tokens: it reads a header and the token behind it, or stops
at a token that its stage refuses and keeps what is complete. -/
inductive HeaderEnds (ts : List Token) : HeaderReading → Prop where
  | accepted {p : PackageClause} {found : List ImportSpec} {rest : List Token}
      (read : Reads .start ts (.finished p) found rest) : HeaderEnds ts ⟨some ⟨p, found⟩, none⟩
  | failed {clause? : Option PackageClause} {found : List ImportSpec} {e : HeaderError}
      (stopped : Fails .start ts clause? found e.span) :
      HeaderEnds ts ⟨clause?.map (⟨·, found⟩), some e⟩

theorem readHeader_ends {stream : TokenStream} (final : stream.last.kind.isFinal = true) :
    HeaderEnds (stream.tokens ++ [stream.last]) (readHeader .withImports stream) := by
  have clause := readPackageClause_ends final stream.tokens
  unfold readHeader
  cases clause_ran : readPackageClause stream.last stream.tokens with
  | error e =>
    rw [clause_ran] at clause
    exact HeaderEnds.failed clause
  | ok read =>
    obtain ⟨p, rest⟩ := read
    rw [clause_ran] at clause
    have read := Reads.append clause [stream.last]
    have imports := readImports_ends final p rest
    simp only
    cases imports_ran : readImports stream.last rest with
    | mk found error? =>
      rw [imports_ran] at imports
      cases error? with
      | none =>
        obtain ⟨others, finish⟩ := imports
        exact .accepted (read.then finish)
      | some e => exact HeaderEnds.failed (read.fails imports)

/-- A text ends with a final token. -/
theorem run_last_isFinal (s : LexState) : s.run.last.kind.isFinal = true := by
  fun_induction LexState.run s with
  | case1 _ last => exact last
  | case2 _ _ _ ih => exact ih

/-- All tokens of a text, the final one included. -/
def tokenSequence (text : String) : List Token :=
  (tokenize text).tokens ++ [(tokenize text).last]

/-- The tokens start with a header. -/
def Accepted (ts : List Token) : Prop :=
  ∃ steps package, Header steps package ∧ tokens steps <+: ts

/-- The error of a reading is at a token, the first that no header goes on with. The header is
missing if the package clause is not complete in front of that token. Otherwise it holds the clause
and the specs that are complete there, in any header that starts with the tokens in front. -/
structure FailsAt (ts : List Token) (reading : HeaderReading) (k : Nat) : Prop where
  error : ∃ t e, ts[k]? = some t ∧ reading.error? = some e ∧ e.span = t.span
  first : ∀ j, Viable (ts.take j) ↔ j ≤ k
  headless : reading.header? = none ↔
    ∀ clause package, Clause clause package → ¬ tokens clause <+: ts.take k
  complete : ∀ header ∈ reading.header?, ∀ steps package, Header steps package →
    ts.take k <+: tokens steps → header = ⟨package, specs (steps.take k)⟩

/-- Tokens start with at most one header. -/
theorem header_unique {ts : List Token} {a b : List Step} {p q : PackageClause}
    (left : Walk .start a (.finished p)) (right : Walk .start b (.finished q))
    (left_front : tokens a <+: ts) (right_front : tokens b <+: ts) : a = b ∧ p = q := by
  rcases List.prefix_or_prefix_of_prefix left_front right_front with front | front
  · obtain ⟨same, stage⟩ := left.whole right front
    cases stage
    exact ⟨same.symm, rfl⟩
  · obtain ⟨same, stage⟩ := right.whole left front
    cases stage
    exact ⟨same, rfl⟩

section Failing

variable {ts : List Token} {steps : List Step} {stage : Stage} {t : Token}

/-- Tokens that reach a refused one start with no header. -/
theorem not_accepted (walk : Walk .start steps stage) (running : ∀ p, stage ≠ .finished p)
    (refused : stage.Refuses t) (front : tokens steps ++ [t] <+: ts) : ¬ Accepted ts := by
  rintro ⟨others, package, header, header_front⟩
  rcases List.prefix_or_prefix_of_prefix header_front front with shorter | longer
  · rcases List.prefix_concat_iff.mp shorter with same | within
    · exact walk.not_over refused header.walk (same ▸ List.prefix_rfl)
    · exact running package (header.walk.whole walk within).2
  · exact walk.not_over refused header.walk longer

theorem take_walked (front : tokens steps ++ [t] <+: ts) : ts.take steps.length = tokens steps := by
  obtain ⟨rest, rfl⟩ := front
  rw [List.append_assoc, ← tokens_length, List.take_left]

/-- The tokens up to a refused one are the viable ones. -/
theorem viable_iff (walk : Walk .start steps stage) (refused : stage.Refuses t)
    (front : tokens steps ++ [t] <+: ts) (j : Nat) : Viable (ts.take j) ↔ j ≤ steps.length := by
  constructor
  · rintro ⟨others, package, header, viable⟩
    apply Nat.le_of_not_lt
    intro beyond
    have reached : tokens steps ++ [t] <+: ts.take j := by
      refine List.prefix_take_iff.mpr ⟨front, ?_⟩
      rw [List.length_append, tokens_length]
      exact beyond
    exact walk.not_over refused header.walk (reached.trans viable)
  · -- No stage is a dead end, so what is read up to the refused token starts some header.
    intro within
    obtain ⟨others, package, header, viable⟩ := walk.viable
    refine ⟨others, package, header, List.IsPrefix.trans ?_ viable⟩
    rw [← take_walked front]
    exact List.take_prefix_take_left within

/-- A clause is complete in front of the refused token if its stage knows one. -/
theorem unfinished_iff (walk : Walk .start steps stage) : stage.package? = none ↔
    ∀ clause package, Clause clause package → ¬ tokens clause <+: tokens steps := by
  constructor
  · intro unfinished clause package complete front
    obtain ⟨rest, rfl, further⟩ := complete.walk.extends walk front
    cases unfinished.symm.trans (further.package_keeps rfl)
  · intro incomplete
    cases known : stage.package? with
    | none => rfl
    | some p =>
      obtain ⟨clause, rest, rfl, complete⟩ := walk.clause known
      exact absurd ⟨tokens rest, (tokens_append clause rest).symm⟩ (incomplete clause p complete)

theorem failsAt {clause? : Option PackageClause} {found : List ImportSpec} {e : HeaderError}
    (stopped : Fails .start ts clause? found e.span) :
    ¬ Accepted ts ∧ ∃ k, FailsAt ts ⟨clause?.map (⟨·, found⟩), some e⟩ k := by
  obtain ⟨steps, stage, t, rest, walk, running, refused, known, rfl, rfl, place⟩ := stopped
  have front : tokens steps ++ [t] <+: tokens steps ++ t :: rest :=
    ⟨rest, (List.append_cons (tokens steps) t rest).symm⟩
  refine ⟨not_accepted walk running refused front, steps.length, ?_⟩
  exact {
    error := ⟨t, e, by simp, rfl, place.symm⟩
    first := viable_iff walk refused front
    headless := by
      rw [take_walked front, ← unfinished_iff walk, known, Option.map_eq_none_iff]
    complete := by
      intro header member others package whole longer
      rw [take_walked front] at longer
      obtain ⟨rest, rfl, further⟩ := walk.extends whole.walk longer
      obtain ⟨p, clause, rfl⟩ := Option.map_eq_some_iff.mp member
      cases further.package_keeps (known.trans clause)
      rw [List.take_left] }

end Failing

/-- The reader accepts exactly the texts that start with a header, and gives the name and the specs
of that header. Any other text has one error: at the first token that no header goes on with. -/
theorem parseHeader_exact (text : String) :
    ((parseHeader .withImports text).error? = none ↔ Accepted (tokenSequence text)) ∧
      (∀ steps package, Header steps package → tokens steps <+: tokenSequence text →
        parseHeader .withImports text = ⟨some ⟨package, specs steps⟩, none⟩) ∧
      ((parseHeader .withImports text).error? ≠ none →
        ∃ k, FailsAt (tokenSequence text) (parseHeader .withImports text) k) := by
  have ends : HeaderEnds (tokenSequence text) (parseHeader .withImports text) :=
    readHeader_ends (run_last_isFinal (LexState.start text))
  generalize parseHeader .withImports text = reading at ends
  cases ends with
  | @accepted p found rest read =>
    obtain ⟨steps, walk, rfl, taken⟩ := read
    have front : tokens steps <+: tokenSequence text := ⟨rest, taken.symm⟩
    refine ⟨⟨fun _ => ⟨steps, p, walk.header, front⟩, fun _ => rfl⟩, ?_, absurd rfl⟩
    intro others package header header_front
    obtain ⟨rfl, rfl⟩ := header_unique walk header.walk front header_front
    rfl
  | failed stopped =>
    obtain ⟨refuted, fails⟩ := failsAt stopped
    refine ⟨⟨nofun, fun accepted => absurd accepted refuted⟩, ?_, fun _ => fails⟩
    intro others package header header_front
    exact absurd ⟨others, package, header, header_front⟩ refuted

-- A second spec on the line is an error at its literal, and the first is kept.
example : ((parseHeader .withImports "package p\nimport (\"a\" \"b\")").header?.map fun header =>
    header.imports.map (·.path)) = some ["a"] := by decide +kernel

end PackageLoader.HeaderReading
