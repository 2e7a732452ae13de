import PackageLoader.Table
import PackageLoader.Toml.Value

/-!
TOML documents: the table that the headers and assignments of a text build up, by the rules of
TOML 1.1 that the `toml` library documents. A key is assigned once, a table has one header, and a
table that was written in one style is not extended in another. The first fault in the order of
the text makes the document malformed; faults of the layout come before all others.
-/
namespace PackageLoader.Toml

/-! ## Tables by path -/

/-- Changes the table that a path of keys leads to, making the tables on the way that are missing.
Where an array of tables is on the way, its last table is meant. A path that is part of a dotted
key does not enter tables with a header of their own. -/
def within (dotted : Bool) (change : TableKind → Entries → Except Malformed Entries) :
    List Key → TableKind → Entries → Except Malformed Entries
  | [], kind, entries => change kind entries
  | key :: path, _, entries =>
    let put (value : Value) : Entries := alterEntry key.name (fun _ => some value) entries
    match findEntry key.name entries with
    | none => do
      let kind := if dotted then TableKind.dotted else .implicit
      return put (.table (← within dotted change path kind []) kind key.line)
    | some (.table inner kind line) =>
      if kind = .inline || (dotted && kind = .header) then .error key.line
      else do return put (.table (← within dotted change path kind inner) kind line)
    | some (.array items true line) =>
      match items.getLast? with
      | some (.table inner kind start) => do
        let last := Value.table (← within dotted change path kind inner) kind start
        return put (.array (items.dropLast ++ [last]) true line)
      | _ => .error key.line
    | some _ => .error key.line

/-- Assigns a value to a dotted key. Dotted keys, and they alone, reach into tables that dotted keys
have made. -/
def assign (path : List Key) (key : Key) (value : Value) (entries : Entries) :
    Except Malformed Entries :=
  let put (kind : TableKind) (entries : Entries) : Except Malformed Entries :=
    if decide (kind = .dotted) == path.isEmpty || (findEntry key.name entries).isSome then
      .error key.line
    else .ok (alterEntry key.name (fun _ => some value) entries)
  within (!path.isEmpty) put path .header entries

/-- How many parts a dotted key may have. -/
def maxKeyParts : Nat := 80

/-- Reads a dotted key: the keys that lead to a table, and the one inside it. That it has too many
parts, or none, is a fault of no line of its own and is reported on the first one. -/
def readPath (parts : List Raw) : Except Malformed (List Key × Key) := do
  let keys ← parts.mapM readKey
  match keys.getLast? with
  | some key => if keys.length ≤ maxKeyParts then .ok (keys.dropLast, key) else .error 1
  | none => .error 1

/-! ## Values -/

mutual

/-- Reads a value. -/
def readValue : RawValue → Except Malformed Value
  | .scalar raw => readScalar raw
  | .array items line => do return .array (← readItems items) false line
  | .table entries line => do return .table (← readEntries [] entries) .inline line

/-- Reads the items of an array in order. -/
def readItems : List RawValue → Except Malformed (List Value)
  | [] => .ok []
  | item :: rest => do return (← readValue item) :: (← readItems rest)

/-- Reads the entries of an inline table in order and adds them to those before them. -/
def readEntries (entries : Entries) : List (List Raw × RawValue) → Except Malformed Entries
  | [] => .ok entries
  | e :: rest => do readEntries (← readEntry entries e) rest

/-- Reads an entry of an inline table: its key, then its value. -/
def readEntry (entries : Entries) : List Raw × RawValue → Except Malformed Entries
  | (parts, raw) => do
    let (path, key) ← readPath parts
    assign path key (← readValue raw) entries

end

/-! ## Documents -/

/-- A header with the assignments up to the next one. -/
structure Section where
  ofArray : Bool
  key : List Raw
  line : Nat
  assignments : List (List Raw × RawValue)

/-- The assignments in front of the first header, and the sections. -/
def sections : List Expression → List (List Raw × RawValue) × List Section
  | [] => ([], [])
  | .assign key value :: rest => ((key, value) :: (sections rest).1, (sections rest).2)
  | .header ofArray key line :: rest =>
    ([], ⟨ofArray, key, line, (sections rest).1⟩ :: (sections rest).2)

/-- The entries that a table has before its own header, left there by headers of tables inside
it. -/
def entriesBefore (key : Key) (entries : Entries) : Except Malformed Entries :=
  match findEntry key.name entries with
  | none => .ok []
  | some (.table inner .implicit _) => .ok inner
  | some _ => .error key.line

/-- Adds a table to the array of tables with its key. -/
def append (key : Key) (table : Value) (entries : Entries) : Except Malformed Entries :=
  let put (value : Value) : Except Malformed Entries :=
    .ok (alterEntry key.name (fun _ => some value) entries)
  match findEntry key.name entries with
  | none => put (.array [table] true table.line)
  | some (.array items true line) => put (.array (items ++ [table]) true line)
  | some _ => .error key.line

/-- Adds a section to a document. The place of a table is looked up before its assignments are
read, the place of a table in an array behind them. -/
def addSection (root : Entries) (s : Section) : Except Malformed Entries := do
  let (path, key) ← readPath s.key
  if s.ofArray then
    let table := Value.table (← readEntries [] s.assignments) .header s.line
    within false (fun _ => append key table) path .header root
  else
    let put (_ : TableKind) (entries : Entries) : Except Malformed Entries := do
      let inner ← readEntries (← entriesBefore key entries) s.assignments
      return alterEntry key.name (fun _ => some (.table inner .header s.line)) entries
    within false put path .header root

/-- Reads a document. -/
def readDocument (text : String) : Except Malformed Entries := do
  let (first, others) := sections (← layOut text.toList)
  others.foldlM addSection (← readEntries [] first)

end PackageLoader.Toml
