import PackageLoader.Header

/-! The grammar of file headers, and the stages of reading one. A header is a package clause, import
declarations and one token that starts no other declaration. Every token carries the spec that it
completes, so any front part of a header says which specs are complete in it. A stage knows which
tokens may come next. The ways from the first stage to the last one spell the headers, no token
sequence has two ways, and every stage still has a way to the last one. -/
namespace PackageLoader.HeaderGrammar

/-! ## The grammar -/

/-- A token of a header and the spec that it completes, if it does. -/
structure Step where
  token : Token
  spec? : Option ImportSpec

/-- A token that completes no spec. -/
abbrev word (kind : TokenKind) (place : Span) : Step :=
  ⟨⟨kind, place⟩, none⟩

/-- A string literal completes a spec. The name or dot in front of it is where the spec starts. -/
abbrev pathStep (named : Option (String × Span)) (literal : String) (place : Span) : Step :=
  ⟨⟨.literal .string literal, place⟩, some ⟨named.map (·.1), unquote literal,
    ((named.map (·.2)).getD place).through place⟩⟩

def tokens (steps : List Step) : List Token :=
  steps.map (·.token)

/-- The specs that are complete behind some steps, in order. -/
def specs (steps : List Step) : List ImportSpec :=
  steps.filterMap (·.spec?)

/-- What may stand in front of an import path: nothing, a name or a dot. -/
inductive Named : List Step → Option (String × Span) → Prop where
  | nothing : Named [] none
  | name {name : String} {place : Span} : Named [word (.ident name) place] (some (name, place))
  | dot {place : Span} : Named [word (.symbol .dot) place] (some (".", place))

/-- A spec is a string literal with an import path between its quotes. -/
inductive Spec : List Step → Prop where
  | path {front : List Step} {named : Option (String × Span)} {literal : String} {place : Span}
      (before : Named front named) (valid : isImportPath (unquote literal) = true) :
      Spec (front ++ [pathStep named literal place])

/-- Specs with semicolons between them. One more may stand behind the last. -/
inductive Specs : List Step → Prop where
  | none : Specs []
  | last {spec : List Step} (single : Spec spec) : Specs spec
  | more {spec others : List Step} {place : Span} (first : Spec spec) (rest : Specs others) :
      Specs (spec ++ word .semi place :: others)

/-- An import declaration: a spec or a group of them. -/
inductive Decl : List Step → Prop where
  | single {spec : List Step} {start stop : Span} (single : Spec spec) :
      Decl (word (.keyword .import_) start :: (spec ++ [word .semi stop]))
  | group {list : List Step} {start opened closed stop : Span} (list_ok : Specs list) :
      Decl (word (.keyword .import_) start :: word (.symbol .lparen) opened ::
        (list ++ [word (.symbol .rparen) closed, word .semi stop]))

/-- Import declarations behind each other. -/
inductive Decls : List Step → Prop where
  | none : Decls []
  | more {decl others : List Step} (first : Decl decl) (rest : Decls others) :
      Decls (decl ++ others)

/-- A package clause with the separator behind it. -/
inductive Clause : List Step → PackageClause → Prop where
  | clause {name : String} {start place stop : Span} :
      Clause [word (.keyword .package) start, word (.ident name) place, word .semi stop]
        ⟨name, start.through place⟩

/-- A whole header, with the token behind it that is not the word `import`. -/
inductive Header : List Step → PackageClause → Prop where
  | header {clause decls : List Step} {package : PackageClause} {other : Token}
      (front : Clause clause package) (imports : Decls decls)
      (ended : other.kind ≠ .keyword .import_) :
      Header (clause ++ decls ++ [⟨other, none⟩]) package

/-- Tokens that some header starts with. -/
def Viable (ts : List Token) : Prop :=
  ∃ steps package, Header steps package ∧ ts <+: tokens steps

@[simp]
theorem tokens_nil : tokens [] = [] := rfl

@[simp]
theorem tokens_cons (s : Step) (steps : List Step) :
    tokens (s :: steps) = s.token :: tokens steps := rfl

@[simp]
theorem tokens_append (a b : List Step) : tokens (a ++ b) = tokens a ++ tokens b :=
  List.map_append

@[simp]
theorem tokens_length (steps : List Step) : (tokens steps).length = steps.length :=
  List.length_map _

@[simp]
theorem specs_append (a b : List Step) : specs (a ++ b) = specs a ++ specs b :=
  List.filterMap_append

/-! ## Stages -/

/-- How far a header is read. Where specs stand, `grouped` says whether a group is open. -/
inductive Stage where
  | start
  | name (start : Span)
  | clauseEnd (package : PackageClause)
  | decls (package : PackageClause)
  | spec (package : PackageClause) (grouped : Bool)
  | path (package : PackageClause) (grouped : Bool) (named : String × Span)
  | behind (package : PackageClause) (grouped : Bool)
  | finished (package : PackageClause)

/-- The package clause, once it is complete. -/
def Stage.package? : Stage → Option PackageClause
  | start | name _ | clauseEnd _ => none
  | decls p | spec p _ | path p _ _ | behind p _ | finished p => some p

/-- The step that a token makes from a stage, and the stage behind it. -/
inductive Move : Stage → Step → Stage → Prop where
  | package {start : Span} : Move .start (word (.keyword .package) start) (.name start)
  | name {start place : Span} {name : String} :
      Move (.name start) (word (.ident name) place) (.clauseEnd ⟨name, start.through place⟩)
  | clauseEnd {p : PackageClause} {place : Span} : Move (.clauseEnd p) (word .semi place) (.decls p)
  | import_ {p : PackageClause} {place : Span} :
      Move (.decls p) (word (.keyword .import_) place) (.spec p false)
  | finish {p : PackageClause} {other : Token} (ended : other.kind ≠ .keyword .import_) :
      Move (.decls p) ⟨other, none⟩ (.finished p)
  | opened {p : PackageClause} {place : Span} :
      Move (.spec p false) (word (.symbol .lparen) place) (.spec p true)
  | closed {p : PackageClause} {place : Span} :
      Move (.spec p true) (word (.symbol .rparen) place) (.behind p false)
  | localName {p : PackageClause} {grouped : Bool} {name : String} {place : Span} :
      Move (.spec p grouped) (word (.ident name) place) (.path p grouped (name, place))
  | dot {p : PackageClause} {grouped : Bool} {place : Span} :
      Move (.spec p grouped) (word (.symbol .dot) place) (.path p grouped (".", place))
  | path {p : PackageClause} {grouped : Bool} {literal : String} {place : Span}
      (valid : isImportPath (unquote literal) = true) :
      Move (.spec p grouped) (pathStep none literal place) (.behind p grouped)
  | namedPath {p : PackageClause} {grouped : Bool} {named : String × Span} {literal : String}
      {place : Span} (valid : isImportPath (unquote literal) = true) :
      Move (.path p grouped named) (pathStep (some named) literal place) (.behind p grouped)
  | separated {p : PackageClause} {place : Span} :
      Move (.behind p true) (word .semi place) (.spec p true)
  | closedBehind {p : PackageClause} {place : Span} :
      Move (.behind p true) (word (.symbol .rparen) place) (.behind p false)
  | declEnd {p : PackageClause} {place : Span} :
      Move (.behind p false) (word .semi place) (.decls p)

/-- No step from the stage takes the token. -/
def Stage.Refuses (q : Stage) (t : Token) : Prop :=
  ∀ s next, Move q s next → s.token ≠ t

/-- A way through the stages. -/
inductive Walk : Stage → List Step → Stage → Prop where
  | nil {q : Stage} : Walk q [] q
  | cons {q next stop : Stage} {s : Step} {steps : List Step} (move : Move q s next)
      (walk : Walk next steps stop) : Walk q (s :: steps) stop

/-- A token makes at most one step. -/
theorem Move.unique {q a b : Stage} {s s' : Step} (left : Move q s a) (right : Move q s' b)
    (same : s.token = s'.token) : s = s' ∧ a = b := by
  -- Two rules for one stage ask for different tokens; only `finish` has to be told from `import_`.
  cases left <;> cases right <;> grind

theorem Walk.single {q next : Stage} {s : Step} (move : Move q s next) : Walk q [s] next :=
  .cons move .nil

theorem Walk.append {q middle stop : Stage} {a b : List Step} (left : Walk q a middle)
    (right : Walk middle b stop) : Walk q (a ++ b) stop := by
  induction left with
  | nil => exact right
  | cons move _ ih => exact .cons move (ih right)

/-- Of two ways from one stage, the one with more tokens goes on where the other stops. -/
theorem Walk.extends {q middle stop : Stage} {a b : List Step} (left : Walk q a middle)
    (right : Walk q b stop) (front : tokens a <+: tokens b) :
    ∃ rest, b = a ++ rest ∧ Walk middle rest stop := by
  induction left generalizing b with
  | nil => exact ⟨b, rfl, right⟩
  | cons move _ ih =>
    cases right with
    | nil => simp at front
    | cons move' walk' =>
      obtain ⟨same, shorter⟩ := List.cons_prefix_cons.mp front
      obtain ⟨rfl, rfl⟩ := move.unique move' same
      obtain ⟨rest, rfl, walk⟩ := ih walk' shorter
      exact ⟨rest, rfl, walk⟩

/-- Nothing comes behind the last stage. -/
theorem Walk.of_finished {p : PackageClause} {steps : List Step} {stop : Stage}
    (walk : Walk (.finished p) steps stop) : steps = [] ∧ stop = .finished p := by
  cases walk with
  | nil => exact ⟨rfl, rfl⟩
  | cons move => cases move

/-- A way that has come to the last stage does not go on. -/
theorem Walk.whole {q stop : Stage} {a b : List Step} {p : PackageClause}
    (left : Walk q a (.finished p)) (right : Walk q b stop) (front : tokens a <+: tokens b) :
    b = a ∧ stop = .finished p := by
  obtain ⟨rest, rfl, walk⟩ := left.extends right front
  obtain ⟨rfl, same⟩ := walk.of_finished
  exact ⟨List.append_nil a, same⟩

/-- No way leads over a token that its stage refuses. -/
theorem Walk.not_over {q middle stop : Stage} {a b : List Step} {t : Token} (left : Walk q a middle)
    (refused : middle.Refuses t) (right : Walk q b stop) : ¬ tokens a ++ [t] <+: tokens b := by
  intro beyond
  obtain ⟨rest, rfl, walk⟩ := left.extends right ((List.prefix_append _ _).trans beyond)
  rw [tokens_append, List.prefix_append_right_inj] at beyond
  cases walk with
  | nil => simp at beyond
  | cons move => exact refused _ _ move (List.cons_prefix_cons.mp beyond).1.symm

/-- A package clause that is complete stays as it is. -/
theorem Walk.package_keeps {q stop : Stage} {steps : List Step} {p : PackageClause}
    (walk : Walk q steps stop) (clause : q.package? = some p) : stop.package? = some p := by
  induction walk with
  | nil => exact clause
  | cons move _ ih =>
    refine ih ?_
    cases move <;> first | exact clause | cases clause

/-! ## Headers are ways from the first stage to the last -/

theorem Spec.walk {steps : List Step} (spec : Spec steps) (p : PackageClause) (grouped : Bool) :
    Walk (.spec p grouped) steps (.behind p grouped) := by
  cases spec with
  | path front valid =>
    cases front with
    | nothing => exact .single (.path valid)
    | name => exact .cons .localName (.single (.namedPath valid))
    | dot => exact .cons .dot (.single (.namedPath valid))

/-- Specs lead up to the parenthesis that closes their group. -/
theorem Specs.walk {steps : List Step} (list : Specs steps) (p : PackageClause) (place : Span) :
    Walk (.spec p true) (steps ++ [word (.symbol .rparen) place]) (.behind p false) := by
  induction list with
  | none => exact .single .closed
  | last single => exact (single.walk p true).append (.single .closedBehind)
  | more first _ ih =>
    rw [List.append_assoc]
    exact (first.walk p true).append (.cons .separated ih)

theorem Decl.walk {steps : List Step} (decl : Decl steps) (p : PackageClause) :
    Walk (.decls p) steps (.decls p) := by
  cases decl with
  | single spec => exact .cons .import_ ((spec.walk p false).append (.single .declEnd))
  | group list =>
    rw [List.append_cons]
    exact .cons .import_ (.cons .opened ((list.walk p _).append (.single .declEnd)))

theorem Decls.walk {steps : List Step} (decls : Decls steps) (p : PackageClause) :
    Walk (.decls p) steps (.decls p) := by
  induction decls with
  | none => exact .nil
  | more first _ ih => exact (first.walk p).append ih

theorem Clause.walk {steps : List Step} {p : PackageClause} (clause : Clause steps p) :
    Walk .start steps (.decls p) := by
  cases clause
  exact .cons .package (.cons .name (.single .clauseEnd))

theorem Header.walk {steps : List Step} {p : PackageClause} (header : Header steps p) :
    Walk .start steps (.finished p) := by
  cases header with
  | header front imports ended =>
    exact (front.walk.append (imports.walk p)).append (.single (.finish ended))

/-! ## Ways from the first stage to the last are headers -/

/-- What comes next where a spec may stand: a parenthesis or a spec. -/
theorem spec_of_walk {p q : PackageClause} {grouped : Bool} {steps : List Step}
    (walk : Walk (.spec p grouped) steps (.finished q)) :
    (grouped = false ∧ ∃ place rest, steps = word (.symbol .lparen) place :: rest ∧
      Walk (.spec p true) rest (.finished q)) ∨
    (grouped = true ∧ ∃ place rest, steps = word (.symbol .rparen) place :: rest ∧
      Walk (.behind p false) rest (.finished q)) ∨
    ∃ spec rest, steps = spec ++ rest ∧ Spec spec ∧
      Walk (.behind p grouped) rest (.finished q) := by
  cases walk with
  | cons move walk =>
    cases move with
    | opened => exact .inl ⟨rfl, _, _, rfl, walk⟩
    | closed => exact .inr (.inl ⟨rfl, _, _, rfl, walk⟩)
    | path valid => exact .inr (.inr ⟨_, _, rfl, .path .nothing valid, walk⟩)
    | localName =>
      cases walk with
      | cons move walk =>
        cases move with
        | namedPath valid => exact .inr (.inr ⟨_ :: [_], _, rfl, .path .name valid, walk⟩)
    | dot =>
      cases walk with
      | cons move walk =>
        cases move with
        | namedPath valid => exact .inr (.inr ⟨_ :: [_], _, rfl, .path .dot valid, walk⟩)

/-- An open group holds specs up to its closing parenthesis. -/
theorem specs_of_walk {p q : PackageClause} {steps : List Step}
    (walk : Walk (.spec p true) steps (.finished q)) :
    ∃ list place rest, steps = list ++ word (.symbol .rparen) place :: rest ∧ Specs list ∧
      Walk (.behind p false) rest (.finished q) := by
  rcases spec_of_walk walk with ⟨impossible, _⟩ | ⟨-, place, rest, joined, closed⟩ |
    ⟨spec, behind, joined, single, more⟩
  · cases impossible
  · exact ⟨[], place, rest, joined, .none, closed⟩
  · -- Behind a spec the group ends, or the steps behind a separator are those of a shorter group.
    cases more with
    | cons move after =>
      cases move with
      | closedBehind => exact ⟨spec, _, _, joined, .last single, after⟩
      | @separated _ between =>
        have shorter := congrArg List.length joined
        obtain ⟨list, place, rest, rfl, list_ok, closed⟩ := specs_of_walk after
        refine ⟨spec ++ word .semi between :: list, place, rest, ?_, .more single list_ok, closed⟩
        rw [joined, List.append_assoc, List.cons_append]
termination_by steps.length
decreasing_by
  simp only [List.length_append, List.length_cons] at shorter
  omega

/-- Behind a declaration stands its separator. -/
theorem separator_of_walk {p q : PackageClause} {steps : List Step}
    (walk : Walk (.behind p false) steps (.finished q)) :
    ∃ place rest, steps = word .semi place :: rest ∧ Walk (.decls p) rest (.finished q) := by
  cases walk with
  | cons move walk =>
    cases move
    exact ⟨_, _, rfl, walk⟩

/-- What comes next between declarations: the last token or another declaration. -/
theorem decl_of_walk {p q : PackageClause} {steps : List Step}
    (walk : Walk (.decls p) steps (.finished q)) :
    (p = q ∧ ∃ other, steps = [⟨other, none⟩] ∧ other.kind ≠ .keyword .import_) ∨
    ∃ decl rest, steps = decl ++ rest ∧ Decl decl ∧ Walk (.decls p) rest (.finished q) := by
  cases walk with
  | cons move after =>
    cases move with
    | @finish _ other ended =>
      obtain ⟨rfl, same⟩ := after.of_finished
      cases same
      exact .inl ⟨rfl, other, rfl, ended⟩
    | @import_ _ place =>
      refine .inr ?_
      rcases spec_of_walk after with ⟨-, opened, inside, rfl, group⟩ | ⟨impossible, _⟩ |
        ⟨spec, behind, rfl, single, behind_walk⟩
      · obtain ⟨list, closed, behind, rfl, list_ok, behind_walk⟩ := specs_of_walk group
        obtain ⟨stop, rest, rfl, others⟩ := separator_of_walk behind_walk
        exact ⟨word (.keyword .import_) place :: word (.symbol .lparen) opened ::
          (list ++ [word (.symbol .rparen) closed, word .semi stop]), rest, by simp,
          .group list_ok, others⟩
      · cases impossible
      · obtain ⟨stop, rest, rfl, others⟩ := separator_of_walk behind_walk
        exact ⟨word (.keyword .import_) place :: (spec ++ [word .semi stop]), rest, by simp,
          .single single, others⟩

theorem decls_of_walk {p q : PackageClause} {steps : List Step}
    (walk : Walk (.decls p) steps (.finished q)) :
    p = q ∧ ∃ decls other, steps = decls ++ [⟨other, none⟩] ∧ Decls decls ∧
      other.kind ≠ .keyword .import_ := by
  rcases decl_of_walk walk with ⟨same, other, joined, ended⟩ | ⟨decl, rest, joined, first, more⟩
  · exact ⟨same, [], other, joined, .none, ended⟩
  · have whole := congrArg List.length joined
    have longer : 0 < decl.length := by cases first <;> simp
    obtain ⟨same, decls, other, split, others, ended⟩ := decls_of_walk more
    refine ⟨same, decl ++ decls, other, ?_, .more first others, ended⟩
    rw [joined, split, List.append_assoc]
termination_by steps.length
decreasing_by
  rw [List.length_append] at whole
  omega

theorem Walk.header {steps : List Step} {p : PackageClause}
    (walk : Walk .start steps (.finished p)) : Header steps p := by
  rcases walk with _ | ⟨⟨⟩, _ | ⟨⟨⟩, _ | ⟨⟨⟩, walk⟩⟩⟩
  obtain ⟨rfl, decls, other, rfl, imports, ended⟩ := decls_of_walk walk
  exact .header .clause imports ended

/-- The package clause is complete as soon as its three tokens are read. -/
theorem Walk.clause {steps : List Step} {q : Stage} {p : PackageClause} (walk : Walk .start steps q)
    (complete : q.package? = some p) : ∃ clause rest, steps = clause ++ rest ∧ Clause clause p := by
  rcases walk with _ | ⟨⟨⟩, _ | ⟨⟨⟩, _ | ⟨⟨⟩, walk⟩⟩⟩ <;> simp only [Stage.package?] at complete
  · cases complete
  · cases complete
  · cases complete
  · cases (walk.package_keeps rfl).symm.trans complete
    exact ⟨[_, _, _], _, rfl, .clause⟩

/-! ## No stage is a dead end -/

theorem decls_completes (p : PackageClause) : ∃ rest, Walk (.decls p) rest (.finished p) :=
  ⟨_, .single (@Move.finish p ⟨.eof, .point 0⟩ (by simp))⟩

theorem behind_completes (p : PackageClause) (grouped : Bool) :
    ∃ rest, Walk (.behind p grouped) rest (.finished p) := by
  obtain ⟨rest, walk⟩ := decls_completes p
  have ended : Walk (.behind p false) _ (.finished p) := .cons (@Move.declEnd p (.point 0)) walk
  cases grouped with
  | false => exact ⟨_, ended⟩
  | true => exact ⟨_, .cons (@Move.closedBehind p (.point 0)) ended⟩

/-- Every stage has a way to the last one. -/
theorem Stage.completes (q : Stage) : ∃ rest p, Walk q rest (.finished p) := by
  have valid : isImportPath (unquote "\"a\"") = true := by decide
  have fromClauseEnd (p : PackageClause) : ∃ rest, Walk (.clauseEnd p) rest (.finished p) := by
    obtain ⟨rest, walk⟩ := decls_completes p
    exact ⟨_, .cons (@Move.clauseEnd p (.point 0)) walk⟩
  have fromName (start : Span) : ∃ rest p, Walk (.name start) rest (.finished p) := by
    obtain ⟨rest, walk⟩ := fromClauseEnd ⟨"p", start.through (.point 0)⟩
    exact ⟨_, _, .cons .name walk⟩
  cases q with
  | start =>
    obtain ⟨rest, p, walk⟩ := fromName (.point 0)
    exact ⟨_, p, .cons .package walk⟩
  | name start => exact fromName start
  | clauseEnd p => exact (fromClauseEnd p).imp fun _ walk => ⟨p, walk⟩
  | decls p => exact (decls_completes p).imp fun _ walk => ⟨p, walk⟩
  | spec p grouped =>
    obtain ⟨rest, walk⟩ := behind_completes p grouped
    exact ⟨_, p, .cons (@Move.path p grouped _ (.point 0) valid) walk⟩
  | path p grouped named =>
    obtain ⟨rest, walk⟩ := behind_completes p grouped
    exact ⟨_, p, .cons (@Move.namedPath p grouped named _ (.point 0) valid) walk⟩
  | behind p grouped => exact (behind_completes p grouped).imp fun _ walk => ⟨p, walk⟩
  | finished p => exact ⟨[], p, .nil⟩

/-- What is read on a way from the first stage is viable. -/
theorem Walk.viable {steps : List Step} {q : Stage} (walk : Walk .start steps q) :
    Viable (tokens steps) := by
  obtain ⟨rest, p, finish⟩ := q.completes
  exact ⟨steps ++ rest, p, (walk.append finish).header, by simp⟩

end PackageLoader.HeaderGrammar
