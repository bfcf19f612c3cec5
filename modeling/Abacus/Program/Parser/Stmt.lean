import Abacus.Program.Parser.Expr

/-!
# Productions for statements and programs

A block holds statements between braces; a block with nothing in it holds the one statement `empty`.
A program is a function followed by the end of the text.
-/

namespace Abacus

namespace Parser

/-- A declaration: `Type NAME ";"`. -/
def declare (p : Parser) : Step p.remaining Stmt :=
  p.type.andThen fun type q _ =>
    q.name.andThen fun name r _ => (r.need .semi).map fun _ => .declare type name

/-- An assignment: `NAME "=" Expr ";"`. -/
def assign (p : Parser) : Step p.remaining Stmt :=
  p.name.andThen fun target q _ =>
    (q.need .assign).andThen fun _ r _ =>
      r.expr.andThen fun value s _ => (s.need .semi).map fun _ => .assign target value

mutual

/-- A block: `"{" Stmt+ "}"`. -/
def block (p : Parser) : Step p.remaining (List Stmt) :=
  (p.need .lbrace).andTail fun _ q _ =>
    (statements q).andThen fun body r _ => (r.need .rbrace).map fun _ => body
termination_by 4 * p.remaining

/-- The statements up to a closing brace, or `empty` right before it. -/
def statements (p : Parser) : Step (p.remaining + 1) (List Stmt) :=
  if p.kind = .rbrace then .pure [.empty] p else statementsTail p
termination_by 4 * p.remaining + 3

/-- The statements up to a closing brace. -/
def statementsTail (p : Parser) : Step (p.remaining + 1) (List Stmt) :=
  if p.kind = .rbrace then .pure [] p
  else Step.loosen <| (properStmt p).andTail fun s q _ => (statementsTail q).map (s :: ·)
termination_by 4 * p.remaining + 2

/-- A statement other than `empty`. -/
def properStmt (p : Parser) : Step p.remaining Stmt :=
  match p.kind with
  | .lbrace => (block p).map .block
  | .ident => assign p
  | .int | .float => declare p
  | _ => .failed (p.unexpected "expected a statement") p
termination_by 4 * p.remaining + 1

end

/-- A statement: `Block | Assign | Declare`, or `empty` before a closing brace. -/
def stmt (p : Parser) : Step (p.remaining + 1) Stmt :=
  if p.kind = .rbrace then .pure .empty p else p.properStmt.loosen

/-- A parameter: `Type NAME`. -/
def param (p : Parser) : Step p.remaining Param :=
  p.type.andThen fun type q _ => q.name.map fun name => ⟨type, name⟩

/-- Goes on with parameters after a comma. -/
def paramsTail (p : Parser) : Step (p.remaining + 1) (List Param) :=
  if p.kind = .comma then
    Step.loosen <| (p.need .comma).andThen fun _ q _ =>
      q.param.andTail fun first r _ => (paramsTail r).map (first :: ·)
  else .pure [] p
termination_by p.remaining

/-- Parameters: `Param ("," Param)*`. -/
def params (p : Parser) : Step p.remaining (List Param) :=
  p.param.andTail fun first q _ => q.paramsTail.map (first :: ·)

/-- A program: `"function" NAME "(" Params ")" Block`. -/
def program (p : Parser) : Step p.remaining Program :=
  if p.kind = .ident ∧ p.current.lexeme = functionKeyword then
    (p.need .ident).andThen fun _ q _ =>
      q.name.andThen fun name r _ =>
        (r.need .lparen).andThen fun _ s _ =>
          s.params.andThen fun params u _ =>
            (u.need .rparen).andThen fun _ v _ =>
              v.block.map fun body => ⟨name, params, body⟩
  else .failed (p.unexpected "expected `function`") p

end Parser

namespace Program

/-- Reads a program and the end of the text, and gives all tokens pulled on the way. -/
def parseFrom (c : Cursor) : Attempt Diagnostic (Array Token) Program :=
  match Parser.start c with
  | .error d => (.error d, #[])
  | .ok p =>
    let whole := p.program.attempt.andThen fun program q =>
      (q.expect .eof).andThen fun _ r => (.ok program, r)
    (whole.1, whole.2.pulled)

/-- Reads a program from a text. -/
def parse (text : String) (file : Option String) : Except Diagnostic Program :=
  (parseFrom (.ofText text file)).1

end Program

end Abacus
