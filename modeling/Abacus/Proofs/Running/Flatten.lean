import Abacus.Evaluation
import Abacus.Scope.Check

/-!
# Blocks opened

All blocks share one scope and one environment, so a block does what its statements do in its
place. `Stmt.flatten` opens the blocks of a statement at every depth; a block without a statement
counts as `empty`, which does nothing and has the same value.

* `Stmt.checkAll_flattenAll` — the check gives the same answer and leaves the same tree.
* `Stmt.execAll_flattenAll` — running gives the same answer and leaves the same environment.
* `Stmt.simple_of_mem_flattenAll` — no block is left.
* `Program.outcome_flatten` — all three for a program, from any tree and any environment.
-/

namespace Abacus

namespace Stmt

mutual

/-- The statements of a statement, its blocks opened. -/
def flatten : Stmt → List Stmt
  | .declare type name => [.declare type name]
  | .assign target value => [.assign target value]
  | .block body => if body.isEmpty then [.empty] else flattenAll body
  | .empty => [.empty]

/-- The statements of statements, their blocks opened. -/
def flattenAll : List Stmt → List Stmt
  | [] => []
  | s :: ss => s.flatten ++ flattenAll ss

end

/-- A statement other than a block. -/
inductive Simple : Stmt → Prop
  | declare (type : NumType) (name : String) : Simple (.declare type name)
  | assign (target : String) (value : Expr) : Simple (.assign target value)
  | empty : Simple .empty

mutual

theorem simple_of_mem_flatten : ∀ s : Stmt, ∀ s' ∈ s.flatten, Simple s'
  | .declare type name => List.forall_mem_singleton.mpr (.declare type name)
  | .assign target value => List.forall_mem_singleton.mpr (.assign target value)
  | .block body => by
    rw [flatten]
    split
    · exact List.forall_mem_singleton.mpr .empty
    · exact simple_of_mem_flattenAll body
  | .empty => List.forall_mem_singleton.mpr .empty

/-- No block is left. -/
theorem simple_of_mem_flattenAll : ∀ ss : List Stmt, ∀ s' ∈ flattenAll ss, Simple s'
  | [] => nofun
  | s :: ss =>
    List.forall_mem_append.mpr ⟨simple_of_mem_flatten s, simple_of_mem_flattenAll ss⟩

end

/-! ## The check -/

theorem checkAll_append (t : ScopeTree) (ss ss' : List Stmt) :
    checkAll t (ss ++ ss') = (checkAll t ss).andThen fun _ t' => checkAll t' ss' := by
  induction ss generalizing t with
  | nil => rw [List.nil_append, checkAll, Attempt.andThen_ok]
  | cons s ss ih =>
    rw [List.cons_append, checkAll, checkAll]
    rcases s.check t with ⟨fault | _, t'⟩
    · rfl
    · exact ih t'

theorem checkAll_singleton (t : ScopeTree) (s : Stmt) : checkAll t [s] = s.check t := by
  rw [checkAll]
  rcases s.check t with ⟨fault | _, t'⟩
  · rfl
  · rw [Attempt.andThen_ok, checkAll]

mutual

theorem checkAll_flatten : ∀ (s : Stmt) (t : ScopeTree), checkAll t s.flatten = s.check t
  | .declare type name, t => by rw [flatten, checkAll_singleton]
  | .assign target value, t => by rw [flatten, checkAll_singleton]
  | .block body, t => by
    rw [flatten, check]
    split
    · rename_i hempty
      rw [List.isEmpty_iff.mp hempty, checkAll_singleton, check, checkAll]
    · exact checkAll_flattenAll body t
  | .empty, t => by rw [flatten, checkAll_singleton]

/-- **The check does not see blocks.** -/
theorem checkAll_flattenAll : ∀ (ss : List Stmt) (t : ScopeTree),
    checkAll t (flattenAll ss) = checkAll t ss
  | [], _ => by rw [flattenAll]
  | s :: ss, t => by
    rw [flattenAll, checkAll_append, checkAll_flatten s, checkAll]
    rcases s.check t with ⟨fault | _, t'⟩
    · rfl
    · exact checkAll_flattenAll ss t'

end

/-! ## Running -/

theorem execAll_append (env : Environment) (last : Value) (ss ss' : List Stmt) :
    execAll env last (ss ++ ss') =
      (execAll env last ss).andThen fun value env' => execAll env' value ss' := by
  induction ss generalizing env last with
  | nil => rw [List.nil_append, execAll, Attempt.andThen_ok]
  | cons s ss ih =>
    rw [List.cons_append, execAll, execAll]
    rcases s.exec env with ⟨fault | value, env'⟩
    · rfl
    · exact ih env' value

theorem execAll_singleton (env : Environment) (last : Value) (s : Stmt) :
    execAll env last [s] = s.exec env := by
  rw [execAll]
  rcases s.exec env with ⟨fault | value, env'⟩
  · rfl
  · rw [Attempt.andThen_ok, execAll]

/-- The value before counts only if there is no statement. -/
theorem execAll_of_ne_nil (env : Environment) (last last' : Value) {ss : List Stmt} (h : ss ≠ []) :
    execAll env last ss = execAll env last' ss := by
  cases ss with
  | nil => exact absurd rfl h
  | cons s ss => rw [execAll, execAll]

mutual

theorem execAll_flatten : ∀ (s : Stmt) (env : Environment) (last : Value),
    execAll env last s.flatten = s.exec env
  | .declare type name, env, last => by rw [flatten, execAll_singleton]
  | .assign target value, env, last => by rw [flatten, execAll_singleton]
  | .block body, env, last => by
    rw [flatten, exec]
    split
    · rename_i hempty
      rw [List.isEmpty_iff.mp hempty, execAll_singleton, exec, execAll]
    · rename_i hne
      -- The block starts from zero and its statements from `last`, which no statement reads.
      rw [execAll_flattenAll body env last]
      exact execAll_of_ne_nil env last _ fun hnil => hne (List.isEmpty_iff.mpr hnil)
  | .empty, env, last => by rw [flatten, execAll_singleton]

/-- **Running does not see blocks.** -/
theorem execAll_flattenAll : ∀ (ss : List Stmt) (env : Environment) (last : Value),
    execAll env last (flattenAll ss) = execAll env last ss
  | [], _, _ => by rw [flattenAll]
  | s :: ss, env, last => by
    rw [flattenAll, execAll_append, execAll_flatten s, execAll]
    rcases s.exec env with ⟨fault | value, env'⟩
    · rfl
    · exact execAll_flattenAll ss env' value

end

end Stmt

namespace Program

/-- The program with the blocks in its body opened. -/
def flatten (p : Program) : Program := { p with body := Stmt.flattenAll p.body }

/-- **Blocks make no difference.** A program without its blocks passes the check or fails it with
the same fault and leaves the same tree, and has the same value or the same fault when it runs and
leaves the same environment. -/
theorem outcome_flatten (p : Program) (t : ScopeTree) (env : Environment) :
    (∀ s ∈ p.flatten.body, s.Simple) ∧ p.flatten.checkIn t = p.checkIn t ∧
      p.flatten.exec env = p.exec env := by
  refine ⟨Stmt.simple_of_mem_flattenAll p.body, Stmt.checkAll_flattenAll p.body t, ?_⟩
  rw [exec, exec, Stmt.exec, Stmt.exec]
  exact Stmt.execAll_flattenAll p.body env _

end Program

end Abacus
