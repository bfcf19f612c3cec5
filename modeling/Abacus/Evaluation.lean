import Abacus.Environment

/-!
# Evaluation

A program is run by running its statements in order. Every statement has a value: the one it stores,
zero for an empty statement, and for a block that of its last statement. Parameters have no value. A
failing statement changes nothing and ends the run.
-/

namespace Abacus

/-- The value of an expression, left operands first. -/
def Expr.eval (env : Environment) : Expr → Except Fault Value
  | literal type text => Value.ofLiteral type text
  | var name => env.get name
  | unary op operand => do return (← operand.eval env).unary op
  | binary op left right => do
    let l ← left.eval env
    let r ← right.eval env
    l.binary op r

mutual

/-- Runs a statement. -/
def Stmt.exec (env : Environment) : Stmt → Attempt Fault Environment Value
  | .declare type name =>
    (env.declare name (Value.zero type)).andThen fun _ env' => (.ok (Value.zero type), env')
  | .assign target value =>
    match value.eval env with
    | .ok v => (.ok v, env.assign target v)
    | .error fault => (.error fault, env)
  | .block body => Stmt.execAll env (Value.int 0) body
  | .empty => (.ok (Value.int 0), env)

/-- Runs statements in order; `last` is the value if there are none. -/
def Stmt.execAll (env : Environment) (last : Value) :
    List Stmt → Attempt Fault Environment Value
  | [] => (.ok last, env)
  | s :: ss => (s.exec env).andThen fun value env' => Stmt.execAll env' value ss

end

/-- What a finished run leaves: its value and the bindings in order. -/
structure Evaluation where
  result : Value
  bindings : List (String × Value)

/-- The value of a name after the run. -/
def Evaluation.binding? (e : Evaluation) (name : String) : Option Value :=
  (e.bindings.find? (·.1 == name)).map Prod.snd

namespace Program

/-- Runs a program in an environment, which is kept also when the run fails. -/
def exec (env : Environment) (p : Program) : Attempt Fault Environment Value :=
  (Stmt.block p.body).exec env

/-- Runs a program in an environment of its own. -/
def evaluate (p : Program) : Except Fault Evaluation :=
  match p.exec .empty with
  | (.ok result, env) => .ok ⟨result, env.bindings⟩
  | (.error fault, _) => .error fault

end Program

end Abacus
