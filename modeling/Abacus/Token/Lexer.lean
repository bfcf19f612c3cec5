import Abacus.Token.Cursor

/-!
# Movable lexers

A lexer reads tokens from a text like a cursor, can be moved over any number of bytes, and records
the tokens it hands out while it is watched. A move may end past the text, where every token is
`eof`, or inside a character, where nothing can be read.
-/

namespace Abacus

open Abacus.Text

/-- A place in a text that is kept whole. `watcher` is the label under which tokens are recorded. -/
structure Lexer where
  file : String
  text : List Char
  offset : Nat := 0
  watcher : Option String := none
  observed : Array (String × Token) := #[]

namespace Lexer

/-- The start of a text. -/
def ofText (text : String) (file : Option String) : Lexer :=
  { file := file.getD Cursor.defaultFile, text := text.toList }

/-- Whether no byte is left. -/
def atEnd (l : Lexer) : Bool := byteLength l.text ≤ l.offset

/-- The place in the file. -/
def position (l : Lexer) : Position := ⟨l.offset.toUInt32, l.file⟩

/-- The next `length` bytes. -/
def span (l : Lexer) (length : Nat) : Span := Span.ofLength l.file l.offset length

/-- Moves over `n` bytes, whatever they are. -/
def advance (l : Lexer) (n : Nat) : Lexer := { l with offset := l.offset + n }

/-- What is left of the text: nothing to say past its end or inside a character. -/
def remainder? (l : Lexer) : Option String :=
  (dropBytes? l.offset l.text).map String.ofList

/-- Records tokens under `label` from now on. -/
def watch (l : Lexer) (label : String) : Lexer := { l with watcher := some label }

/-- Records a token if the lexer is watched. -/
def record (l : Lexer) (t : Token) : Lexer :=
  match l.watcher with
  | some label => { l with observed := l.observed.push (label, t) }
  | none => l

/-- The cursor at the same place, unless it is inside a character. -/
def cursor? (l : Lexer) : Option Cursor :=
  if l.atEnd then some ⟨l.file, l.offset, []⟩
  else (dropBytes? l.offset l.text).map (⟨l.file, l.offset, ·⟩)

/-- The next token, unless the lexer stands inside a character. -/
def next (l : Lexer) : Option (Attempt Diagnostic Lexer Token) :=
  l.cursor?.map fun c =>
    match c.next with
    | (.ok t, c') => (.ok t, { l with offset := c'.offset }.record t)
    | (.error d, c') => (.error d, { l with offset := c'.offset })

end Lexer

end Abacus
