import Abacus.Scope.Tree

/-!
# The declaration check

Every name is declared before it is used, and once. The statements are taken in order, and all
blocks share one scope; parameters are not declared. The check stops at the first statement that
breaks the rule and leaves the tree as the statements before it made it.
-/

namespace Abacus

/-- A name in use has to be visible from the cursor. -/
def ScopeTree.checkName (t : ScopeTree) (name : String) : Except Fault Unit :=
  if (t.lookup? name).isNone then .error (.undeclared name) else .ok ()

/-- Checks an expression, the left operand before the right one. -/
def Expr.check (t : ScopeTree) : Expr → Except Fault Unit
  | literal _ _ => .ok ()
  | var name => t.checkName name
  | unary _ operand => operand.check t
  | binary _ left right => do
    left.check t
    right.check t

mutual

/-- Checks a statement. An assignment uses its target first and then its value; only then is the
target marked. -/
def Stmt.check (t : ScopeTree) : Stmt → Attempt Fault ScopeTree Unit
  | .declare type name => t.define name type
  | .assign target value =>
    match t.checkName target with
    | .error fault => (.error fault, t)
    | .ok () =>
      match value.check t with
      | .error fault => (.error fault, t)
      | .ok () => t.markAssigned target
  | .block body => Stmt.checkAll t body
  | .empty => (.ok (), t)

/-- Checks statements in order. -/
def Stmt.checkAll (t : ScopeTree) : List Stmt → Attempt Fault ScopeTree Unit
  | [] => (.ok (), t)
  | s :: ss => (s.check t).andThen fun _ t' => Stmt.checkAll t' ss

end

namespace Program

/-- Checks a program against a tree, which is kept also when the check fails. -/
def checkIn (t : ScopeTree) (p : Program) : Attempt Fault ScopeTree Unit :=
  Stmt.checkAll t p.body

/-- Checks a program on its own. -/
def check (p : Program) : Except Fault ScopeTree :=
  match p.checkIn .initial with
  | (.ok _, t) => .ok t
  | (.error fault, _) => .error fault

end Program

end Abacus
