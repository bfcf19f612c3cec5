import Abacus.Attempt
import Abacus.Decimal.Numeral
import Abacus.Fault
import Abacus.Text.Alphabetic
import Abacus.Text.Blank
import Abacus.Text.Numeric
import Abacus.Text.Utf8

/-!
# Reading tokens

A cursor is a place in a text: what is left to read, and its byte offset. `Cursor.next` skips blanks
and reads the longest lexeme there. Words start with an alphabetic character and go on with
alphabetic and numeric ones; numerals start with a digit and go on with digits and dots; a mark is
one character.

A text that goes on with none of them is at fault, and so is a numeral with two dots. The cursor
then stands before the offending character, past the blanks, and stays there.
-/

namespace Abacus

open Abacus.Text Abacus.Decimal

/-! ## Lexemes -/

/-- What may follow the first character of a word. -/
def isWordPart (c : Char) : Bool := isAlphabetic c || isNumeric c

/-- What may follow the first digit of a numeral. -/
def isNumeralPart (c : Char) : Bool := c.isDigit || c == '.'

/-- The words for the types are keywords, every other word is a name. -/
def wordKind (word : String) : TokenKind :=
  if word = "int" then .int
  else if word = "float" then .float
  else .ident

/-- A numeral is an integer if it can be read as one in 64 bits, and else a float if it can be read
as a number at all. -/
def numeralKind? (text : String) : Option TokenKind :=
  if (readInt? text).isSome then some .intConst
  else if (readNumeral? text).isSome then some .floatConst
  else none

/-- The tokens of one character. -/
def markKind? (c : Char) : Option TokenKind :=
  match c with
  | '=' => some .assign
  | '\x7b' => some .lbrace
  | '\x7d' => some .rbrace
  | ',' => some .comma
  | ';' => some .semi
  | '/' => some .div
  | '*' => some .mul
  | '+' => some .add
  | '-' => some .sub
  | '(' => some .lparen
  | ')' => some .rparen
  | _ => none

/-- The longest lexeme at the start of `c :: rest`, with its kind. -/
def lexeme (c : Char) (rest : List Char) : Except Fault (TokenKind × List Char) :=
  if isAlphabetic c then
    let word := c :: rest.takeWhile isWordPart
    .ok (wordKind (String.ofList word), word)
  else if c.isDigit then
    let numeral := c :: rest.takeWhile isNumeralPart
    match numeralKind? (String.ofList numeral) with
    | some kind => .ok (kind, numeral)
    | none => .error (.malformedNumeral (String.ofList numeral))
  else
    match markKind? c with
    | some kind => .ok (kind, [c])
    | none => .error (.unsupported (String.ofList [c]))

theorem lexeme_ne_nil {c : Char} {rest : List Char} {kind : TokenKind} {chars : List Char}
    (h : lexeme c rest = .ok (kind, chars)) : chars ≠ [] := by
  simp only [lexeme] at h
  repeat' split at h
  all_goals simp only [Except.ok.injEq, Prod.mk.injEq, reduceCtorEq] at h
  all_goals simp [← h.2]

/-! ## Cursors -/

/-- A place in a text: the text that is left, its byte offset, and the name of the file. -/
structure Cursor where
  file : String
  offset : Nat
  rest : List Char
deriving DecidableEq, Repr

namespace Cursor

/-- The name of a text that comes from no file. -/
def defaultFile : String := "shell"

/-- The start of a text. -/
def ofText (text : String) (file : Option String) : Cursor :=
  ⟨file.getD defaultFile, 0, text.toList⟩

/-- The place in the file. -/
def position (c : Cursor) : Position := ⟨c.offset.toUInt32, c.file⟩

/-- The first place that holds no blank. -/
def skipBlanks (c : Cursor) : Cursor :=
  { c with
    offset := c.offset + byteLength (c.rest.takeWhile isBlank)
    rest := c.rest.dropWhile isBlank }

/-- The token of the next characters. -/
def token (c : Cursor) (kind : TokenKind) (chars : List Char) : Token :=
  ⟨kind, String.ofList chars, Span.ofLength c.file c.offset (byteLength chars)⟩

/-- The place after the next characters. -/
def past (c : Cursor) (chars : List Char) : Cursor :=
  { c with offset := c.offset + byteLength chars, rest := c.rest.drop chars.length }

/-- The next token, and the cursor after it. At the end of the text it is `eof`, every time. -/
def next (c : Cursor) : Attempt Diagnostic Cursor Token :=
  let c := c.skipBlanks
  match c.rest with
  | [] => (.ok (c.token .eof []), c)
  | ch :: rest =>
    match lexeme ch rest with
    | .ok (kind, chars) => (.ok (c.token kind chars), c.past chars)
    | .error fault => (.error ⟨fault, c.position⟩, c)

theorem length_skipBlanks_le (c : Cursor) : c.skipBlanks.rest.length ≤ c.rest.length := by
  have h := congrArg List.length (List.takeWhile_append_dropWhile (p := isBlank) (l := c.rest))
  simp only [List.length_append] at h
  simp only [skipBlanks]
  omega

/-- A token other than `eof` takes at least one character, and `eof` adds none. -/
theorem next_length {c c' : Cursor} {t : Token} (h : c.next = (.ok t, c')) :
    c'.rest.length < c.rest.length ∨ t.kind = .eof ∧ c'.rest.length ≤ c.rest.length := by
  have hle := c.length_skipBlanks_le
  unfold next at h
  simp only at h
  split at h
  · simp only [Prod.mk.injEq, Except.ok.injEq] at h
    obtain ⟨rfl, rfl⟩ := h
    exact .inr ⟨rfl, hle⟩
  · rename_i ch rest hrest
    split at h
    · rename_i kind chars hlex
      simp only [Prod.mk.injEq, Except.ok.injEq] at h
      obtain ⟨rfl, rfl⟩ := h
      have hpos : 0 < chars.length := List.length_pos_iff.mpr (lexeme_ne_nil hlex)
      refine .inl ?_
      simp only [past, List.length_drop]
      rw [hrest] at hle ⊢
      simp only [List.length_cons] at hle ⊢
      omega
    · simp at h

/-- All tokens up to and with the first `eof`. -/
def tokens (c : Cursor) : Except Diagnostic (List Token) :=
  match h : c.next with
  | (.error d, _) => .error d
  | (.ok t, c') =>
    if ht : t.kind = .eof then .ok [t]
    else
      have : c'.rest.length < c.rest.length := (next_length h).resolve_right fun heof => ht heof.1
      (tokens c').map (t :: ·)
termination_by c.rest.length

end Cursor

/-- All tokens of a text up to and with its `eof`. -/
def tokenize (text : String) (file : Option String) : Except Diagnostic (List Token) :=
  (Cursor.ofText text file).tokens

end Abacus
