import Abacus.Fault
import Abacus.Text.Blank
import Abacus.Text.Line

/-!
# Reports

A report names the phase of a fault with its tip and the file, and then shows the line of its place
with a caret under the offending character:

    Error: SyntaxError (Expected `Semi`, found `RBrace`)
    -> sum.txt
      |
    3 | y = 5 }
      | ------^

The line is shown without blanks at its ends, and the caret counts characters from the first one
shown. A diagnostic without a place, or with one outside the text, has the first two lines only.
-/

namespace Abacus

open Abacus.Text

/-- A line without the blanks at its start. -/
def trimStart (cs : List Char) : List Char := cs.dropWhile isBlank

/-- A line without the blanks at its end. -/
def trimEnd (cs : List Char) : List Char := (cs.reverse.dropWhile isBlank).reverse

/-- A text brought to a width by `fill` on its left. -/
def padLeft (width : Nat) (fill : Char) (cs : List Char) : List Char :=
  List.replicate (width - cs.length) fill ++ cs

/-- The column of the caret, from one: the characters before the place, less the blanks at the start
of the line. A place inside a character counts as the end of the line. -/
def caretColumn (line : Line) : Nat :=
  (trimStart ((takeBytes? line.offset line.chars).getD line.chars)).length + 1

/-- The three lines that show a place in its line. The caret's line is as wide as its column asks,
without a limit. -/
def excerpt (line : Line) : List (List Char) :=
  let number := Nat.toDigits 10 line.number
  let gutter := padLeft (number.length + 2) ' ' ['|']
  [gutter,
    number ++ [' ', '|', ' '] ++ trimEnd (trimStart line.chars),
    gutter ++ [' '] ++ padLeft (caretColumn line) '-' ['^']]

namespace Diagnostic

/-- The phase, with the tip if there is one. -/
def headline (d : Diagnostic) : String :=
  match d.fault.tip? with
  | none => "Error: " ++ d.fault.phase.name
  | some tip => "Error: " ++ d.fault.phase.name ++ " (" ++ tip ++ ")"

/-- The line that holds the place, if there is one. -/
def line? (d : Diagnostic) (text : String) : Option Line :=
  if d.position.isNull then none else lineAt? text.toList d.position.offset.toNat

/-- The report on a diagnostic of a text, each line with its newline. -/
def report (d : Diagnostic) (text file : String) : String :=
  let shown :=
    match d.line? text with
    | none => []
    | some line => (excerpt line).map String.ofList
  String.join ((d.headline :: ("-> " ++ file) :: shown).map (· ++ "\n"))

end Diagnostic

end Abacus
