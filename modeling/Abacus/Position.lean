/-!
# Positions and spans

A position is a byte offset in a named file; offsets are kept modulo 2 ^ 32. Passes that work on
trees have no place to report and use `Position.null`.
-/

namespace Abacus

/-- A byte offset in a file. -/
structure Position where
  offset : UInt32
  file : String
deriving DecidableEq, Repr

namespace Position

/-- The file name that stands for no place. -/
def nullFile : String := "<null>"

/-- No place in any file. -/
def null : Position := ⟨0, nullFile⟩

/-- A position is null by its file name alone. -/
def isNull (p : Position) : Bool := p.file == nullFile

end Position

/-- The bytes of a file from `start` up to `stop`. -/
structure Span where
  start : UInt32
  stop : UInt32
  file : String
deriving DecidableEq, Repr

/-- The position of the first byte. -/
def Span.position (s : Span) : Position := ⟨s.start, s.file⟩

/-- The `length` bytes of `file` from `offset` on. -/
def Span.ofLength (file : String) (offset length : Nat) : Span :=
  ⟨offset.toUInt32, (offset + length).toUInt32, file⟩

end Abacus
