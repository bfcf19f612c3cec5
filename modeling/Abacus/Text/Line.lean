import Abacus.Text.Utf8

/-!
# Lines of a text

A line runs through its newline, or to the end of the text. `lineAt?` finds the line that holds a
byte offset; the end of the text belongs to the last line, right after its visible part.
-/

namespace Abacus.Text

/-- A place in a text: the line's number from one, its characters with the newline, and the number
of bytes before the place in it. -/
structure Line where
  number : Nat
  chars : List Char
  offset : Nat
deriving DecidableEq, Repr

/-- The lines of a text, each with its newline. -/
def splitLines : List Char → List (List Char)
  | [] => []
  | c :: cs =>
    if c = '\n' then [c] :: splitLines cs
    else
      match splitLines cs with
      | [] => [[c]]
      | line :: lines => (c :: line) :: lines

/-- A line without its newline. -/
def withoutNewline : List Char → List Char
  | [] => []
  | c :: cs => if c = '\n' then [] else c :: withoutNewline cs

/-- The line among `lines`, the first of them numbered `number`, that holds the byte `offset`. -/
def findLine (number offset : Nat) : List (List Char) → Option Line
  | [] => none
  | line :: lines =>
    if offset < byteLength line then some ⟨number, line, offset⟩
    else findLine (number + 1) (offset - byteLength line) lines

/-- The last of the lines, with the place after its visible part. -/
def lastLine? (lines : List (List Char)) : Option Line :=
  lines.getLast?.map fun line => ⟨lines.length, line, byteLength (withoutNewline line)⟩

/-- The line of the byte `offset`: none past the end of the text, and none in the empty text. -/
def lineAt? (text : List Char) (offset : Nat) : Option Line :=
  if offset = byteLength text then lastLine? (splitLines text)
  else findLine 1 offset (splitLines text)

end Abacus.Text
