import Abacus.Text.Unprintable

/-!
# Quoted text

Messages show a text between double quotes. A quote, a backslash and the common controls are written
with a backslash, every other unprintable character by its code point in hexadecimal, all else as it
is.
-/

namespace Abacus.Text

/-- The code point in hexadecimal, in braces after `\u`. -/
def escapeCode (c : Char) : List Char :=
  '\\' :: 'u' :: '\x7b' :: Nat.toDigits 16 c.toNat ++ ['\x7d']

/-- One character of a quoted text. -/
def escape (c : Char) : List Char :=
  if c = '\x00' then ['\\', '0']
  else if c = '\t' then ['\\', 't']
  else if c = '\r' then ['\\', 'r']
  else if c = '\n' then ['\\', 'n']
  else if c = '\\' then ['\\', '\\']
  else if c = '"' then ['\\', '"']
  else if isUnprintable c then escapeCode c
  else [c]

/-- A text between double quotes. -/
def quote (text : String) : String :=
  String.ofList ('"' :: text.toList.flatMap escape ++ ['"'])

end Abacus.Text
