/-!
Byte positions and spans of source text. Positions are thirty-two bit words; a larger offset keeps
its low bits.
-/
namespace PackageLoader

/-- A byte offset into a source text. -/
structure BytePos where
  word : UInt32
  deriving DecidableEq, Inhabited, Repr

namespace BytePos

/-- `BytePos::from_usize`: the position of an offset, modulo the word size. -/
def ofNat (offset : Nat) : BytePos :=
  ⟨UInt32.ofNat offset⟩

/-- `BytePos::to_usize`: the offset of a position. -/
def toNat (pos : BytePos) : Nat :=
  pos.word.toNat

/-- Positions are ordered by offset. -/
instance : Ord BytePos :=
  ⟨compareOn toNat⟩

end BytePos

/-- A half-open range of byte positions. -/
structure Span where
  start : BytePos
  stop : BytePos
  deriving DecidableEq, Inhabited, Repr

namespace Span

/-- `Span::new`: the span between two offsets. -/
def ofOffsets (start stop : Nat) : Span :=
  ⟨.ofNat start, .ofNat stop⟩

/-- `Span::point`: the empty span at an offset. -/
def point (offset : Nat) : Span :=
  ofOffsets offset offset

/-- `Span::to`: the span from the start of one span to the end of another. -/
def through (a b : Span) : Span :=
  ⟨a.start, b.stop⟩

/-- `Span::len`: the number of bytes covered; a reversed span covers none. -/
def length (s : Span) : Nat :=
  s.stop.toNat - s.start.toNat

/-- `Span::is_empty`: a span that covers nothing. -/
def isEmpty (s : Span) : Bool :=
  s.length == 0

/-- The offsets with two dots between them. -/
def describe (s : Span) : String :=
  toString s.start.toNat ++ ".." ++ toString s.stop.toNat

end Span

end PackageLoader
