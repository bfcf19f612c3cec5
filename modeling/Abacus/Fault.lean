import Abacus.Text.Quoted
import Abacus.Token

/-!
# Faults and diagnostics

A fault is the cause of a failure. Its phase, message and tip are functions of it, and a diagnostic
places it in a file. Messages quote the text they are about; tips show it as it is.
-/

namespace Abacus

/-- The pass that finds a fault. -/
inductive Phase where
  | lexical
  | syntactic
  | semantic
  | runtime
deriving DecidableEq, Repr

/-- The name that messages use. -/
def Phase.name : Phase → String
  | lexical => "LexicalError"
  | syntactic => "SyntaxError"
  | semantic => "SemanticError"
  | runtime => "RuntimeError"

/-- The cause of a failure. -/
inductive Fault where
  /-- No token starts with this character. -/
  | unsupported (text : String)
  /-- Digits and dots that are no number. -/
  | malformedNumeral (text : String)
  /-- A token of another kind was needed. -/
  | unexpected (expected received : TokenKind)
  /-- No token of this kind was possible; the message says what was. -/
  | misplaced (token message : String)
  /-- A name is declared again in its scope. -/
  | redeclared (name : String)
  /-- A name is used that no visible scope declares. -/
  | undeclared (name : String)
  /-- The current scope has no such child. -/
  | unknownScope (scope : String)
  /-- The current scope has such a child already. -/
  | duplicateScope (scope : String)
  /-- The outermost scope has no parent. -/
  | exitRoot
  /-- The operands of an operator are of different types. -/
  | typeMismatch (operator left right : String)
  /-- A name without a value is read. -/
  | unbound (name : String)
  /-- A name with a value is declared. -/
  | alreadyBound (name : String)
deriving DecidableEq, Repr

namespace Fault

open Abacus.Text (quote)

/-- The pass that finds the fault. -/
def phase : Fault → Phase
  | unsupported _ | malformedNumeral _ => .lexical
  | unexpected _ _ | misplaced _ _ => .syntactic
  | redeclared _ | undeclared _ | unknownScope _ | duplicateScope _ | exitRoot => .semantic
  | typeMismatch _ _ _ | unbound _ | alreadyBound _ => .runtime

/-- What is wrong, in one line. -/
def message : Fault → String
  | unsupported text => "unsupported character: " ++ quote text
  | malformedNumeral text => "malformed numeral: " ++ quote text
  | unexpected expected received =>
    "unexpected token: expected " ++ expected.name ++ ", got " ++ received.name
  | misplaced token message => "unexpected token (" ++ message ++ "): " ++ quote token
  | redeclared name => "variable " ++ quote name ++ " is declared more than once"
  | undeclared name => "variable " ++ quote name ++ " is undefined"
  | unknownScope scope => "scope " ++ quote scope ++ " does not exist"
  | duplicateScope scope => "scope " ++ quote scope ++ " already exists"
  | exitRoot => "cannot exit the global scope"
  | typeMismatch operator left right =>
    "cannot apply " ++ operator ++ " to " ++ left ++ " and " ++ right
  | unbound name => "variable " ++ quote name ++ " does not exist"
  | alreadyBound name => "variable " ++ quote name ++ " already exists"

/-- A hint for the reader, if there is one. -/
def tip? : Fault → Option String
  | unsupported _ => none
  | malformedNumeral text =>
    some ("Invalid number: `" ++ text ++ "`, does it contain more than one decimal point?")
  | unexpected expected received =>
    some ("Expected `" ++ expected.name ++ "`, found `" ++ received.name ++ "`")
  | misplaced token message => some ("Unexpected token: `" ++ token ++ "`, " ++ message)
  | redeclared name => some ("Variable `" ++ name ++ "` is declared more than once")
  | undeclared name => some ("Variable `" ++ name ++ "` is undefined, declare it before use")
  | unknownScope scope => some ("Scope `" ++ scope ++ "` does not exist")
  | duplicateScope scope => some ("Scope `" ++ scope ++ "` already exists")
  | exitRoot => some "Cannot exit the global scope"
  | typeMismatch operator left right =>
    some ("Operands of `" ++ operator ++ "` must have the same type, found `" ++ left ++
      "` and `" ++ right ++ "`")
  | unbound name => some ("Variable `" ++ name ++ "` does not exist")
  | alreadyBound name => some ("Variable `" ++ name ++ "` already exists")

end Fault

/-- A fault and the place it concerns. -/
structure Diagnostic where
  fault : Fault
  position : Position
deriving DecidableEq, Repr

namespace Diagnostic

/-- A fault of a pass that has no places to report. -/
def unplaced (fault : Fault) : Diagnostic := ⟨fault, Position.null⟩

/-- The phase and the message. -/
def text (d : Diagnostic) : String :=
  d.fault.phase.name ++ ": " ++ d.fault.message

end Diagnostic

end Abacus
