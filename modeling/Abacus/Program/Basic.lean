/-!
# Programs

A program is one function: a name, parameters and a body of statements. Expressions keep the text of
their number literals, so that a program can be written out as it was read.
-/

namespace Abacus

/-- The two types of number. -/
inductive NumType where
  | int
  | float
deriving DecidableEq, Repr

/-- The word for the type. -/
def NumType.name : NumType → String
  | int => "int"
  | float => "float"

/-- The operators between two operands. -/
inductive BinaryOp where
  | add
  | sub
  | mul
  | div
deriving DecidableEq, Repr

/-- The sign for the operator. -/
def BinaryOp.symbol : BinaryOp → String
  | add => "+"
  | sub => "-"
  | mul => "*"
  | div => "/"

/-- The operators before one operand. -/
inductive UnaryOp where
  | plus
  | minus
deriving DecidableEq, Repr

/-- The sign for the operator. -/
def UnaryOp.symbol : UnaryOp → String
  | plus => "+"
  | minus => "-"

/-- An expression. A literal holds its text, which need not be a number. -/
inductive Expr where
  | literal (type : NumType) (text : String)
  | var (name : String)
  | unary (op : UnaryOp) (operand : Expr)
  | binary (op : BinaryOp) (left right : Expr)
deriving DecidableEq, Repr

/-- A statement. The body of a block that was read empty is the one statement `empty`. -/
inductive Stmt where
  | declare (type : NumType) (name : String)
  | assign (target : String) (value : Expr)
  | block (body : List Stmt)
  | empty
deriving Repr

namespace Stmt

mutual

/-- Equality of statements is decided by their parts. -/
def decEq : (s t : Stmt) → Decidable (s = t)
  | declare a x, declare b y => decidable_of_iff (a = b ∧ x = y) (by simp)
  | assign x e, assign y f => decidable_of_iff (x = y ∧ e = f) (by simp)
  | block ss, block ts =>
    match decEqList ss ts with
    | isTrue h => isTrue (by rw [h])
    | isFalse h => isFalse (by simpa using h)
  | empty, empty => isTrue rfl
  | declare .., assign .. | declare .., block _ | declare .., empty
  | assign .., declare .. | assign .., block _ | assign .., empty
  | block _, declare .. | block _, assign .. | block _, empty
  | empty, declare .. | empty, assign .. | empty, block _ => isFalse (by simp)

/-- Equality of statement lists, statement by statement. -/
def decEqList : (ss ts : List Stmt) → Decidable (ss = ts)
  | [], [] => isTrue rfl
  | [], _ :: _ | _ :: _, [] => isFalse (by simp)
  | s :: ss, t :: ts =>
    match decEq s t with
    | isFalse h => isFalse (by simp [h])
    | isTrue h =>
      match decEqList ss ts with
      | isTrue h' => isTrue (by rw [h, h'])
      | isFalse h' => isFalse (by simp [h'])

end

end Stmt

instance : DecidableEq Stmt := Stmt.decEq

/-- A parameter of the function. -/
structure Param where
  type : NumType
  name : String
deriving DecidableEq, Repr

/-- A program: its only function. -/
structure Program where
  name : String
  params : List Param
  body : List Stmt
deriving DecidableEq, Repr

/-- The word that opens a function. -/
def functionKeyword : String := "function"

end Abacus
