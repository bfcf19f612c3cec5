import Abacus.Evaluation
import Abacus.Program.Parser.Stmt
import Abacus.Scope.Check

/-!
# Running a text

A text is read, checked and evaluated; the first failure ends the run. Only reading knows places, so
the faults of the other two passes are unplaced.
-/

namespace Abacus

/-- Gives the faults of a pass without places the null position. -/
def unplaced {α : Type} : Except Fault α → Except Diagnostic α
  | .ok a => .ok a
  | .error fault => .error (.unplaced fault)

namespace Program

/-- Reads, checks and evaluates a text. -/
def run (text : String) (file : Option String) : Except Diagnostic Evaluation := do
  let p ← parse text file
  let _ ← unplaced p.check
  unplaced p.evaluate

variable {text : String} {file : Option String} {p : Program}

theorem run_of_parse_error {d : Diagnostic} (h : parse text file = .error d) :
    run text file = .error d := by
  rw [run, h]
  rfl

theorem run_of_parse (h : parse text file = .ok p) :
    run text file = (unplaced p.check).bind fun _ => unplaced p.evaluate := by
  rw [run, h]
  rfl

theorem run_of_check {t : ScopeTree} (h : parse text file = .ok p) (hc : p.check = .ok t) :
    run text file = unplaced p.evaluate := by
  rw [run_of_parse h, hc]
  rfl

end Program

end Abacus
