import Abacus.Program.Basic
import Abacus.Program.Parser.Basic

/-!
# Productions for types and expressions

An expression is a chain of terms joined by `+` and `-`, a term a chain of factors joined by `*` and
`/`; both chains lean to the left. A factor is a number, a name, an expression in parentheses, or a
sign and a factor.
-/

namespace Abacus

/-- The type that a keyword names. -/
def TokenKind.numType? : TokenKind → Option NumType
  | int => some .int
  | float => some .float
  | _ => none

/-- The operators that join terms. -/
def TokenKind.additive? : TokenKind → Option BinaryOp
  | add => some .add
  | sub => some .sub
  | _ => none

/-- The operators that join factors. -/
def TokenKind.multiplicative? : TokenKind → Option BinaryOp
  | mul => some .mul
  | div => some .div
  | _ => none

/-- The signs of a factor. -/
def TokenKind.sign? : TokenKind → Option UnaryOp
  | add => some .plus
  | sub => some .minus
  | _ => none

/-- The type of a number token. -/
def TokenKind.literal? : TokenKind → Option NumType
  | intConst => some .int
  | floatConst => some .float
  | _ => none

/-- A table of token kinds has no entry for the end. -/
theorem TokenKind.ne_eof {α : Type} {table : TokenKind → Option α} {k : TokenKind} {a : α}
    (h : table k = some a) (heof : table .eof = none) : k ≠ .eof := by
  rintro rfl
  simp [heof] at h

namespace Parser

/-- A type: `"int" | "float"`. -/
def type (p : Parser) : Step p.remaining NumType :=
  match h : p.kind.numType? with
  | some type => (p.take (TokenKind.ne_eof h rfl)).map fun _ => type
  | none => .failed (p.unexpected "expected a type (`int` or `float`)") p

/-- A name. -/
def name (p : Parser) : Step p.remaining String :=
  (p.need .ident).map Token.lexeme

mutual

/-- An expression: `Term (("+" | "-") Term)*`. -/
def expr (p : Parser) : Step p.remaining Expr :=
  (term p).andTail fun left q _ => exprTail left q
termination_by 5 * p.remaining + 4

/-- Goes on with a chain of terms after `left`. -/
def exprTail (left : Expr) (p : Parser) : Step (p.remaining + 1) Expr :=
  match h : p.kind.additive? with
  | none => .pure left p
  | some op =>
    Step.loosen <| (p.take (TokenKind.ne_eof h rfl)).andThen fun _ q _ =>
      (term q).andTail fun right r _ => exprTail (.binary op left right) r
termination_by 5 * p.remaining + 3

/-- A term: `Factor (("*" | "/") Factor)*`. -/
def term (p : Parser) : Step p.remaining Expr :=
  (factor p).andTail fun left q _ => termTail left q
termination_by 5 * p.remaining + 2

/-- Goes on with a chain of factors after `left`. -/
def termTail (left : Expr) (p : Parser) : Step (p.remaining + 1) Expr :=
  match h : p.kind.multiplicative? with
  | none => .pure left p
  | some op =>
    Step.loosen <| (p.take (TokenKind.ne_eof h rfl)).andThen fun _ q _ =>
      (factor q).andTail fun right r _ => termTail (.binary op left right) r
termination_by 5 * p.remaining + 1

/-- A factor: `("+" | "-") Factor | INT | FLOAT | "(" Expr ")" | NAME`. -/
def factor (p : Parser) : Step p.remaining Expr :=
  match hs : p.kind.sign? with
  | some op =>
    (p.take (TokenKind.ne_eof hs rfl)).andThen fun _ q _ => (factor q).map (.unary op)
  | none =>
    match hl : p.kind.literal? with
    | some type => (p.take (TokenKind.ne_eof hl rfl)).map fun t => .literal type t.lexeme
    | none => if p.kind = .lparen then grouping p else (name p).map .var
termination_by 5 * p.remaining + 1

/-- An expression in parentheses: `"(" Expr ")"`. -/
def grouping (p : Parser) : Step p.remaining Expr :=
  (p.need .lparen).andThen fun _ q _ =>
    (expr q).andThen fun e r _ => (r.need .rparen).map fun _ => e
termination_by 5 * p.remaining

end

end Parser

end Abacus
