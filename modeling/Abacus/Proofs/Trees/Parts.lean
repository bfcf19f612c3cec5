import Abacus.Program.Basic

/-!
# The parts of a program

What a program is made of, read from left to right and through its blocks: its literals, its names,
and the bodies of its blocks.
-/

namespace Abacus

/-- The literals of an expression, from left to right. -/
def Expr.literals : Expr → List (NumType × String)
  | literal type text => [(type, text)]
  | var _ => []
  | unary _ operand => operand.literals
  | binary _ left right => left.literals ++ right.literals

/-- The names that an expression reads, from left to right. -/
def Expr.vars : Expr → List String
  | literal _ _ => []
  | var name => [name]
  | unary _ operand => operand.vars
  | binary _ left right => left.vars ++ right.vars

namespace Stmt

mutual

/-- The literals of a statement, in order. -/
def literals : Stmt → List (NumType × String)
  | .declare _ _ => []
  | .assign _ value => value.literals
  | .block body => literalsAll body
  | .empty => []

/-- The literals of statements, in order. -/
def literalsAll : List Stmt → List (NumType × String)
  | [] => []
  | s :: ss => s.literals ++ literalsAll ss

end

mutual

/-- The names of a statement: those it declares, assigns or reads. -/
def names : Stmt → List String
  | .declare _ name => [name]
  | .assign target value => target :: value.vars
  | .block body => namesAll body
  | .empty => []

/-- The names of statements. -/
def namesAll : List Stmt → List String
  | [] => []
  | s :: ss => s.names ++ namesAll ss

end

mutual

/-- The bodies of the blocks of a statement, at every depth. -/
def bodies : Stmt → List (List Stmt)
  | .block body => body :: bodiesAll body
  | .declare _ _ | .assign _ _ | .empty => []

/-- The bodies of the blocks of statements, at every depth. -/
def bodiesAll : List Stmt → List (List Stmt)
  | [] => []
  | s :: ss => s.bodies ++ bodiesAll ss

end

end Stmt

namespace Program

/-- The names of a program: its own, those of its parameters and those of its body. -/
def names (p : Program) : List String :=
  p.name :: p.params.map Param.name ++ Stmt.namesAll p.body

/-- The literals of a program. -/
def literals (p : Program) : List (NumType × String) := Stmt.literalsAll p.body

/-- The body of a program and those of its blocks, at every depth. -/
def bodies (p : Program) : List (List Stmt) := (Stmt.block p.body).bodies

end Program

end Abacus
