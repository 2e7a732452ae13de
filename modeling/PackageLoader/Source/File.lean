import PackageLoader.Path
import PackageLoader.Source.Span
import PackageLoader.Text.Quoted
import PackageLoader.Text.Utf8

/-!
Source files: decoded text with a table of line starts, from which byte positions get their line
and column. The table, lines and columns are kept in thirty-two bit words, and sums of words wrap.
-/
namespace PackageLoader

open Text

/-- A line and a column, both counted from one. Columns count bytes. -/
structure LineCol where
  line : UInt32
  column : UInt32
  deriving DecidableEq, Repr

/-- The two numbers with a colon between them. -/
def LineCol.describe (place : LineCol) : String :=
  toString place.line ++ ":" ++ toString place.column

/-- The offset behind each newline, given the offset of the first character. -/
def newlineEnds : List Char → Nat → List Nat
  | [], _ => []
  | c :: rest, offset =>
    if c = '\n' then (offset + 1) :: newlineEnds rest (offset + 1)
    else newlineEnds rest (offset + c.utf8Size)

/-! ## Searching a table

`binary_search` of a table in ascending order. It halves the part of the table in which the word can
stand down to one entry, whatever it meets on the way, and compares that entry last. -/

/-- The entry that a part of the table comes down to, given where the part starts and its size. -/
def narrow (table : List UInt32) (word : UInt32) (base size : Nat) : Nat :=
  if 1 < size then
    let middle := base + size / 2
    narrow table word (if word < table.getD middle 0 then base else middle) (size - size / 2)
  else base
termination_by size

/-- Where a word stands in a table, or else where it would have to be put. -/
def search (table : List UInt32) (word : UInt32) : Except Nat Nat :=
  if table.isEmpty then .error 0
  else
    let base := narrow table word 0 table.length
    if table.getD base 0 = word then .ok base
    else if table.getD base 0 < word then .error (base + 1)
    else .error base

/-- A file's path and text. -/
structure SourceFile where
  path : Path
  text : String

namespace SourceFile

/-- `from_bytes`: ill-formed bytes are replaced, so every byte sequence is a source file. -/
def ofBytes (path : Path) (bytes : Bytes) : SourceFile :=
  ⟨path, decodeLossy bytes⟩

/-- The length of the text in bytes. -/
def size (file : SourceFile) : Nat :=
  utf8Length file.text.toList

/-- `compute_line_starts`: the offset at which each line starts. -/
def lineStarts (file : SourceFile) : List UInt32 :=
  (0 :: newlineEnds file.text.toList 0).map .ofNat

/-- `line_count`: the number of lines; a text that ends in a newline has an empty last line. -/
def lineCount (file : SourceFile) : Nat :=
  file.lineStarts.length

/-- The place in the table of the line that an offset is on: the one that was found, or else the one in
front of where it would have to be put. -/
def lineAt : Except Nat Nat → Nat
  | .ok place => place
  | .error place => place - 1

/-- `line_col`: the line and column of a position. Positions beyond the text count as its end. -/
def lineCol (file : SourceFile) (pos : BytePos) : LineCol :=
  let offset := min pos.word (.ofNat file.size)
  let line := lineAt (search file.lineStarts offset)
  let start := file.lineStarts.getD line 0
  ⟨.ofNat (line + 1), (if start ≤ offset then offset - start else 0) + 1⟩

/-- Where a position is, for messages. -/
def location (file : SourceFile) (pos : BytePos) : String :=
  file.path.text ++ ":" ++ (file.lineCol pos).describe

/-- A one-line summary of the file. -/
def summary (file : SourceFile) : String :=
  "SourceFile \x7b path: " ++ quoted file.path.text ++ ", len: " ++ toString file.size ++
    ", lines: " ++ toString file.lineCount ++ " \x7d"

end SourceFile

end PackageLoader
