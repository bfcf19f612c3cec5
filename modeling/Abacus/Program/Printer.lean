import Abacus.Program.Basic

/-!
# Writing programs

Every tree has one written form. Binary expressions stand in parentheses, so no precedence is needed
to read them back; statements of a block stand one space apart. `empty` is written as nothing, which
leaves two spaces in an empty block.
-/

namespace Abacus

/-- The written form of an expression. -/
def Expr.render : Expr → String
  | literal _ text => text
  | var name => name
  | unary op operand => op.symbol ++ operand.render
  | binary op left right =>
    "(" ++ left.render ++ " " ++ op.symbol ++ " " ++ right.render ++ ")"

mutual

/-- The written form of a statement. -/
def Stmt.render : Stmt → String
  | .declare type name => type.name ++ " " ++ name ++ ";"
  | .assign target value => target ++ " = " ++ value.render ++ ";"
  | .block body => "\x7b" ++ Stmt.renderEach body ++ " \x7d"
  | .empty => ""

/-- The written forms of statements, each after a space. -/
def Stmt.renderEach : List Stmt → String
  | [] => ""
  | s :: ss => " " ++ s.render ++ Stmt.renderEach ss

end

/-- The written form of a parameter. -/
def Param.render (p : Param) : String := p.type.name ++ " " ++ p.name

namespace Program

/-- The written form of the function. -/
def render (p : Program) : String :=
  functionKeyword ++ " " ++ p.name ++ "(" ++ ", ".intercalate (p.params.map Param.render) ++ ") " ++
    (Stmt.block p.body).render

/-- The written form as the text of a file: one line. -/
def source (p : Program) : String := p.render ++ "\n"

end Program

end Abacus
