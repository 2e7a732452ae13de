import PackageLoader.Toml.Token

/-!
The layout of TOML text, in which the `toml` library finds faults before it looks at any key or
value: its headers and assignments with keys and scalars still in their source form. Tokens are
taken one at a time by a machine with a stack of open arrays and inline tables, and the first
token that fits nowhere makes the text malformed on its line. Brackets and braces that are open at
the end make it malformed where its last token ends that is neither blank nor comment. A missing
key or value is laid out as an empty one, which is refused when it is read.
-/
namespace PackageLoader.Toml

/-- A scalar or a simple key as it is written, without a quote if it is bare. -/
structure Raw where
  quote? : Option Quote
  text : List Char
  line : Nat
  deriving DecidableEq, Repr

/-- A value as it is written. -/
inductive RawValue where
  | scalar (raw : Raw)
  | array (items : List RawValue) (line : Nat)
  | table (entries : List (List Raw × RawValue)) (line : Nat)

/-- A header or an assignment. -/
inductive Expression where
  | header (ofArray : Bool) (key : List Raw) (line : Nat)
  | assign (key : List Raw) (value : RawValue)

/-- The line on which a text is malformed. -/
abbrev Malformed := Nat

/-- The key or scalar that a token spells, if it spells one. -/
def Token.raw? (t : Token) : Option Raw :=
  match t.mark with
  | .quoted quote => some ⟨some quote, t.text, t.line⟩
  | .bare => some ⟨none, t.text, t.line⟩
  | _ => none

/-- The key or scalar that is missing in front of a token. -/
def missing (line : Nat) : Raw :=
  ⟨none, [], line⟩

/-! ## Keys -/

/-- A dotted key being laid out, last part first: whether a part is wanted next and whether no part
was missing at its end. -/
structure KeyLayout where
  parts : List Raw := []
  wanted : Bool := true
  complete : Bool := true

/-- What a token does to a key: it may belong to the key, or it may end it and stay to be looked
at. -/
inductive KeyStep where
  | more (key : KeyLayout)
  | ended (key : KeyLayout)

/-- Lays out one more token of a key. -/
def KeyLayout.step (key : KeyLayout) (t : Token) : KeyStep :=
  if t.mark = .blank then .more key
  else if key.wanted then
    match t.mark, t.raw? with
    | .dot, _ => .more { key with parts := missing t.line :: key.parts }
    | _, some raw => .more { key with parts := raw :: key.parts, wanted := false }
    | _, none =>
      .ended { parts := missing t.line :: key.parts, wanted := false, complete := false }
  else if t.mark = .dot && key.complete then .more { key with wanted := true }
  else .ended key

/-- The key at the end of the text. -/
def KeyLayout.finish (key : KeyLayout) (line : Nat) : KeyLayout :=
  if key.wanted then
    { parts := missing line :: key.parts, wanted := false, complete := false }
  else key

/-! ## Values -/

/-- What an inline table waits for. -/
inductive TableStage where
  | key (layout : KeyLayout)
  | equals (key : List Raw)
  | value (key : List Raw)
  | comma

/-- An open array or inline table, with what it holds so far, last first. -/
inductive Frame where
  | array (items : List RawValue) (wanted : Bool) (line : Nat)
  | table (entries : List (List Raw × RawValue)) (stage : TableStage) (line : Nat)

/-- How deep arrays and inline tables may be nested. -/
def maxDepth : Nat := 80

/-- A value being laid out: the open frames and, behind the tokens of a bare scalar, that scalar and
the blanks that belong to it if it goes on. -/
structure ValueLayout where
  frames : List Frame := []
  scalar? : Option Raw := none
  gap : List Char := []

/-- What laying out a value comes to. -/
inductive ValueStep where
  | more (layout : ValueLayout)
  | done (value : RawValue)

/-- Puts a complete value into the innermost frame. -/
def place (value : RawValue) : List Frame → ValueStep
  | [] => .done value
  | .array items _ line :: outer => .more { frames := .array (value :: items) false line :: outer }
  | .table entries (.value key) line :: outer =>
    .more { frames := .table ((key, value) :: entries) .comma line :: outer }
  | frames => .more { frames := frames }

/-- Opens an array or inline table. -/
def openFrame (frame : Frame) (line : Nat) (frames : List Frame) : Except Malformed ValueStep :=
  if frames.length < maxDepth then .ok (.more { frames := frame :: frames }) else .error line

/-- Lays out a token where a value is wanted. -/
def startValue (t : Token) (frames : List Frame) : Except Malformed ValueStep :=
  match t.mark with
  | .openBracket => openFrame (.array [] true t.line) t.line frames
  | .openBrace => openFrame (.table [] (.key {}) t.line) t.line frames
  | .quoted quote => .ok (place (.scalar ⟨some quote, t.text, t.line⟩) frames)
  | .bare | .dot => .ok (.more { frames := frames, scalar? := some ⟨none, t.text, t.line⟩ })
  | _ => .error t.line

/-- Lays out a token inside an array. Blanks, comments and newlines may stand anywhere. -/
def arrayStep (items : List RawValue) (wanted : Bool) (line : Nat) (outer : List Frame)
    (t : Token) : Except Malformed ValueStep :=
  let same := Frame.array items wanted line :: outer
  match t.mark with
  | .blank | .comment | .newline => .ok (.more { frames := same })
  | .comma =>
    if wanted then .error t.line else .ok (.more { frames := .array items true line :: outer })
  | .closeBracket => .ok (place (.array items.reverse line) outer)
  | _ => if wanted then startValue t same else .error t.line

/-- Lays out a token inside an inline table. Blanks, comments and newlines may stand anywhere but in
a key, and one comma more may stand behind the last entry. The last entry may lack its value and
its equals sign. -/
def tableStep (entries : List (List Raw × RawValue)) (stage : TableStage) (line : Nat)
    (outer : List Frame) (t : Token) : Except Malformed ValueStep :=
  let next (stage : TableStage) : Except Malformed ValueStep :=
    .ok (.more { frames := .table entries stage line :: outer })
  let close (entries : List (List Raw × RawValue)) : Except Malformed ValueStep :=
    .ok (place (.table entries.reverse line) outer)
  let closeWithout (key : List Raw) : Except Malformed ValueStep :=
    close ((key, .scalar (missing t.line)) :: entries)
  let isGap := t.mark = .comment || t.mark = .newline || t.mark = .blank
  match stage with
  | .key key =>
    if key.parts.isEmpty && isGap then next stage
    else if key.parts.isEmpty && t.mark = .closeBrace then close entries
    else match key.step t with
      | .more key => next (.key key)
      | .ended key =>
        let parts := key.parts.reverse
        if isGap then next (.equals parts)
        else if t.mark = .equals then next (.value parts)
        else if t.mark = .closeBrace then closeWithout parts
        else .error t.line
  | .equals key =>
    if isGap then next stage
    else if t.mark = .equals then next (.value key)
    else if t.mark = .closeBrace then closeWithout key
    else .error t.line
  | .value key =>
    if isGap then next stage
    else if t.mark = .closeBrace then closeWithout key
    else startValue t (.table entries (.value key) line :: outer)
  | .comma =>
    if isGap then next stage
    else if t.mark = .comma then next (.key {})
    else if t.mark = .closeBrace then close entries
    else .error t.line

/-- Lays out a token with respect to the innermost frame. -/
def frameStep (frames : List Frame) (t : Token) : Except Malformed ValueStep :=
  match frames with
  | [] =>
    match t.mark with
    | .blank => .ok (.more {})
    | _ => startValue t []
  | .array items wanted line :: outer => arrayStep items wanted line outer t
  | .table entries stage line :: outer => tableStep entries stage line outer t

/-- Lays out one more token of a value. A bare scalar goes on over bare tokens and dots, and over
blanks between them. -/
def ValueLayout.step (layout : ValueLayout) (t : Token) : Except Malformed ValueStep :=
  match layout.scalar? with
  | none => frameStep layout.frames t
  | some scalar =>
    match t.mark with
    | .bare | .dot =>
      let longer := { scalar with text := scalar.text ++ layout.gap ++ t.text }
      .ok (.more { layout with scalar? := some longer, gap := [] })
    | .blank => .ok (.more { layout with gap := t.text })
    | _ =>
      match place (.scalar scalar) layout.frames with
      | .done value => .ok (.done value)
      | .more inner => frameStep inner.frames t

/-! ## Lines -/

/-- What comes next on the top level. -/
inductive Stage where
  | lineStart
  | lineEnd
  | skipLine
  | headerOpen (line : Nat)
  | header (ofArray : Bool) (key : KeyLayout) (line : Nat)
  | headerClose (key : List Raw) (line : Nat)
  | key (key : KeyLayout)
  | value (key : List Raw) (layout : ValueLayout)

/-- The expressions laid out so far, last first, the stage, and the line that the last token ends on
that is neither blank nor comment. -/
structure Layout where
  expressions : List Expression := []
  stage : Stage := .lineStart
  reached : Nat := 1

/-- Comments hold no control characters but tabs, and a carriage return stands only in front of a
line feed. -/
def Token.isSound (t : Token) : Bool :=
  match t.mark with
  | .comment => t.text.all fun c => c = '\t' || (0x20 ≤ c.toNat && c.toNat ≠ 0x7F)
  | .newline => t.text ≠ ['\r']
  | _ => true

namespace Layout

/-- Goes on at another stage. -/
def goTo (l : Layout) (stage : Stage) : Except Malformed Layout :=
  .ok { l with stage := stage }

/-- Adds an expression; nothing but a comment may follow on its line. -/
def add (l : Layout) (e : Expression) : Layout :=
  { l with expressions := e :: l.expressions, stage := .lineEnd }

/-- Notes how far the text goes with a token. -/
def reach (l : Layout) (t : Token) : Layout :=
  match t.mark with
  | .blank | .comment | .newline => l
  | _ => { l with reached := t.line + t.text.count '\n' }

/-- Lays out a token behind a complete expression. -/
def endLine (l : Layout) (t : Token) : Except Malformed Layout :=
  match t.mark with
  | .blank => .ok l
  | .comment | .newline => l.goTo .lineStart
  | _ => .error t.line

/-- Lays out a token of a key in a header. A header without a key is passed over up to the end of
its line. -/
def headerStep (l : Layout) (ofArray : Bool) (key : KeyLayout) (line : Nat) (t : Token) :
    Except Malformed Layout :=
  match key.step t with
  | .more key => l.goTo (.header ofArray key line)
  | .ended key =>
    let parts := key.parts.reverse
    if t.mark = .closeBracket then
      if ofArray then l.goTo (.headerClose parts line)
      else .ok (l.add (.header false parts line))
    else if key.complete then .error t.line
    else
      let passed := l.add (.header ofArray parts line)
      passed.goTo (if t.mark = .comment || t.mark = .newline then .lineStart else .skipLine)

/-- Lays out one more token. -/
def step (l : Layout) (t : Token) : Except Malformed Layout :=
  if !t.isSound then .error t.line
  else match l.stage with
    | .lineStart =>
      match t.mark, t.raw? with
      | .openBracket, _ => l.goTo (.headerOpen t.line)
      | .blank, _ | .comment, _ | .newline, _ => .ok l
      | .equals, _ => l.goTo (.value [missing t.line] {})
      | .dot, _ => l.goTo (.key { parts := [missing t.line] })
      | _, some raw => l.goTo (.key { parts := [raw], wanted := false })
      | _, none => .error t.line
    | .lineEnd => l.endLine t
    | .skipLine =>
      if t.mark = .comment || t.mark = .newline then l.goTo .lineStart else .ok l
    | .headerOpen line =>
      if t.mark = .openBracket then l.goTo (.header true {} line)
      else l.headerStep false {} line t
    | .header ofArray key line => l.headerStep ofArray key line t
    | .headerClose key line =>
      if t.mark = .closeBracket then .ok (l.add (.header true key line)) else .error t.line
    | .key key =>
      match key.step t with
      | .more key => l.goTo (.key key)
      | .ended key =>
        if t.mark = .equals then l.goTo (.value key.parts.reverse {}) else .error t.line
    | .value key layout =>
      if layout.frames.isEmpty && layout.scalar?.isNone &&
          (t.mark = .comment || t.mark = .comma || t.mark = .newline) then
        (l.add (.assign key (.scalar (missing t.line)))).endLine t
      else do
        match ← layout.step t with
        | .more layout => l.goTo (.value key layout)
        | .done value =>
          let added := l.add (.assign key value)
          if layout.frames.isEmpty && layout.scalar?.isSome then added.endLine t else .ok added

/-- The expressions of a text that ends on the given line. -/
def finish (l : Layout) (line : Nat) : Except Malformed (List Expression) :=
  match l.stage with
  | .lineStart | .lineEnd | .skipLine => .ok l.expressions.reverse
  | .headerOpen start => .ok (l.add (.header false [missing line] start)).expressions.reverse
  | .header ofArray key start =>
    if key.wanted then
      let parts := (key.finish line).parts.reverse
      .ok (l.add (.header ofArray parts start)).expressions.reverse
    else .error line
  | .headerClose .. | .key _ => .error line
  | .value key layout =>
    match layout.frames, layout.scalar? with
    | [], some scalar => .ok (l.add (.assign key (.scalar scalar))).expressions.reverse
    | [], none => .ok (l.add (.assign key (.scalar (missing line)))).expressions.reverse
    | _ :: _, _ => .error l.reached

end Layout

/-- Lays out a text. -/
def layOut (cs : List Char) : Except Malformed (List Expression) := do
  let l ← (tokenize cs).foldlM (fun l t => Layout.step (l.reach t) t) ({} : Layout)
  l.finish (lastLine cs)

end PackageLoader.Toml
