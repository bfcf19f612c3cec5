import Abacus.Proofs.Running.Bindings
import Abacus.Proofs.Running.Flatten

/-!
# Where a run stops

A fault can come up anywhere inside the expressions and blocks of a program, and the environment is
kept. It is then that of a moment between two statements: the ones before have run, the one at fault
has changed nothing.

* `Step env s env'` — a statement that is no block does its work; `Refuses env s fault` — it is at
  fault. One of the two holds (`Stmt.exec_cases`).
* `Steps env ss env'` — statements in a row do their work. A run of statements is that, or stops at
  the first that is at fault (`Stmt.execAll_cases`).
* `Steps.names_prefix`, `Steps.get_eq` — names come last, and only what is named changes.
* `Program.exec_stops_between` — a program from any environment.
-/

namespace Abacus

/-- The name that a statement gives a value. -/
def Stmt.bound? : Stmt → Option String
  | .declare _ name => some name
  | .assign target _ => some target
  | .block _ | .empty => none

/-- A statement does its work: a declaration gives a new name a zero, an assignment gives its target
the value of the expression. -/
inductive Step (env : Environment) : Stmt → Environment → Prop
  | declare {type : NumType} {name : String} {env' : Environment}
      (h : env.declare name (Value.zero type) = (.ok (), env')) :
      Step env (.declare type name) env'
  | assign {target : String} {value : Expr} {v : Value} (h : value.eval env = .ok v) :
      Step env (.assign target value) (env.assign target v)
  | empty : Step env .empty env

/-- A statement is at fault: it declares a name that has a value, or its expression has none. -/
inductive Refuses (env : Environment) : Stmt → Fault → Prop
  | declare {type : NumType} {name : String} (h : name ∈ env.names) :
      Refuses env (.declare type name) (.alreadyBound name)
  | assign {target : String} {value : Expr} {fault : Fault} (h : value.eval env = .error fault) :
      Refuses env (.assign target value) fault

/-- Statements do their work one after the other. -/
inductive Steps : Environment → List Stmt → Environment → Prop
  | nil (env : Environment) : Steps env [] env
  | cons {env env₁ env₂ : Environment} {s : Stmt} {ss : List Stmt} (h : Step env s env₁)
      (hs : Steps env₁ ss env₂) : Steps env (s :: ss) env₂

/-! ## What the work changes -/

section Frame

variable {env env' : Environment} {s : Stmt} {ss : List Stmt} {x : String}

/-- A statement stores a value under the name it binds, or does nothing. -/
theorem Step.stores_or_eq (h : Step env s env') :
    (∃ name value, s.bound? = some name ∧ env.Stores name value env') ∨ env' = env := by
  cases h with
  | @declare type name _ h =>
    rcases (BindingCall.declare name (Value.zero type)).perform_cases env with
      ⟨env₁, hok, hstores⟩ | ⟨-, herror⟩
    · obtain rfl : env₁ = env' := congrArg Prod.snd (hok.symm.trans h)
      exact .inl ⟨name, _, rfl, hstores⟩
    · cases congrArg Prod.fst (herror.symm.trans h)
  | @assign target value v h => exact .inl ⟨target, v, rfl, env.stores_assign target v⟩
  | empty => exact .inr rfl

theorem Step.names_prefix (h : Step env s env') : env.names <+: env'.names := by
  rcases h.stores_or_eq with ⟨name, value, -, hstores⟩ | rfl
  · rw [hstores.names]
    split
    · exact List.prefix_refl _
    · exact List.prefix_append _ _
  · exact List.prefix_refl _

theorem Step.get_eq (h : Step env s env') (hx : s.bound? ≠ some x) : env'.get x = env.get x := by
  rcases h.stores_or_eq with ⟨name, value, hname, hstores⟩ | rfl
  · rw [hstores.get, if_neg]
    rintro rfl
    exact hx hname
  · rfl

/-- **Names keep their places**, and new ones come last. -/
theorem Steps.names_prefix (h : Steps env ss env') : env.names <+: env'.names := by
  induction h with
  | nil => exact List.prefix_refl _
  | cons hs _ ih => exact hs.names_prefix.trans ih

/-- **A name that is not bound on the way keeps its value**, or has none as before. -/
theorem Steps.get_eq (h : Steps env ss env') (hx : ∀ s ∈ ss, s.bound? ≠ some x) :
    env'.get x = env.get x := by
  induction h with
  | nil => rfl
  | cons hs _ ih =>
    obtain ⟨hfirst, hrest⟩ := List.forall_mem_cons.mp hx
    exact (ih hrest).trans (hs.get_eq hfirst)

end Frame

/-! ## Where it stops -/

namespace Stmt

/-- **One statement does its work, or is at fault and changes nothing.** -/
theorem exec_cases {s : Stmt} (hs : s.Simple) (env : Environment) :
    (∃ v env', s.exec env = (.ok v, env') ∧ Step env s env') ∨
      ∃ fault, s.exec env = (.error fault, env) ∧ Refuses env s fault := by
  cases hs with
  | declare type name =>
    rw [exec]
    by_cases hname : name ∈ env.names
    · rw [Environment.declare_of_mem hname]
      exact .inr ⟨_, rfl, .declare hname⟩
    · have hok := Environment.declare_of_not_mem hname (Value.zero type)
      rw [hok]
      exact .inl ⟨_, _, rfl, .declare hok⟩
  | assign target value =>
    rw [exec]
    cases hv : value.eval env with
    | ok v => exact .inl ⟨v, _, rfl, .assign hv⟩
    | error fault => exact .inr ⟨fault, rfl, .assign hv⟩
  | empty =>
    rw [exec]
    exact .inl ⟨_, env, rfl, .empty⟩

/-- A run of statements stops at `s`, in the environment `env'` that the statements before reach. -/
structure StoppedAt (env : Environment) (ss before : List Stmt) (s : Stmt) (env' : Environment)
    (fault : Fault) : Prop where
  split : ∃ after, ss = before ++ s :: after
  steps : Steps env before env'
  refuses : Refuses env' s fault
  unchanged : s.exec env' = (.error fault, env')

/-- **A run of statements does their work, or stops at the first that is at fault.** -/
theorem execAll_cases {ss : List Stmt} (hss : ∀ s ∈ ss, s.Simple) (env : Environment)
    (last : Value) :
    (∃ v env', execAll env last ss = (.ok v, env') ∧ Steps env ss env') ∨
      ∃ before s env' fault, execAll env last ss = (.error fault, env') ∧
        StoppedAt env ss before s env' fault := by
  induction ss generalizing env last with
  | nil => exact .inl ⟨last, env, by rw [execAll], .nil env⟩
  | cons s ss ih =>
    obtain ⟨hs, hrest⟩ := List.forall_mem_cons.mp hss
    rw [execAll]
    rcases exec_cases hs env with ⟨v, env₁, hexec, hstep⟩ | ⟨fault, hexec, hrefuses⟩
    · rw [hexec, Attempt.andThen_ok]
      rcases ih hrest env₁ v with
        ⟨v', env', hall, hsteps⟩ | ⟨before, s', env', fault, hall, hstop⟩
      · exact .inl ⟨v', env', hall, .cons hstep hsteps⟩
      · obtain ⟨after, hsplit⟩ := hstop.split
        exact .inr ⟨s :: before, s', env', fault, hall, ⟨after, congrArg (s :: ·) hsplit⟩,
          .cons hstep hstop.steps, hstop.refuses, hstop.unchanged⟩
    · rw [hexec, Attempt.andThen_error]
      exact .inr ⟨[], s, env, fault, rfl, ⟨ss, rfl⟩, .nil env, hrefuses, hexec⟩

end Stmt

/-- **A run stops between two statements.** Its environment is that of the statements it has
executed, through blocks and in order: all of them if it has a value, and otherwise those before the
one at fault, which changes nothing. Names keep their places, and a name that no executed statement
binds keeps its value. -/
theorem Program.exec_stops_between (env : Environment) (p : Program) :
    ∃ executed, Steps env executed (p.exec env).2 ∧
      (∀ v, (p.exec env).1 = .ok v → executed = Stmt.flattenAll p.body) ∧
      (∀ fault, (p.exec env).1 = .error fault → ∃ s,
        Stmt.StoppedAt env (Stmt.flattenAll p.body) executed s (p.exec env).2 fault) ∧
      env.names <+: (p.exec env).2.names ∧
      ∀ x, (∀ s ∈ executed, s.bound? ≠ some x) → (p.exec env).2.get x = env.get x := by
  rw [exec, Stmt.exec, ← Stmt.execAll_flattenAll]
  rcases Stmt.execAll_cases (Stmt.simple_of_mem_flattenAll p.body) env (.int 0) with
    ⟨v, env', hall, hsteps⟩ | ⟨before, s, env', fault, hall, hstop⟩
  · rw [hall]
    refine ⟨_, hsteps, fun _ _ => rfl, fun fault herror => ?_, hsteps.names_prefix,
      fun x => hsteps.get_eq⟩
    cases herror
  · rw [hall]
    refine ⟨before, hstop.steps, fun v hok => ?_, fun fault herror => ?_,
      hstop.steps.names_prefix, fun x => hstop.steps.get_eq⟩
    · cases hok
    · cases herror
      exact ⟨s, hstop⟩

/-- Operands of different types meet in a block: what was bound before is kept, also by the block,
and a name from an earlier program has its value still. -/
theorem Program.exec_stops_between_mismatch :
    ∃ (env : Environment) (p : Program) (executed : List Stmt) (s : Stmt),
      env.names = ["k"] ∧ p.body = [.declare .int "x", .block [.assign "y" (.literal .int "1"),
        .assign "x" (.binary .add (.var "y") (.literal .float "1.5")), .declare .float "z"]] ∧
      (p.exec env).1 = .error (.typeMismatch "+" "int" "float") ∧
      Stmt.StoppedAt env (Stmt.flattenAll p.body) executed s (p.exec env).2
        (.typeMismatch "+" "int" "float") ∧
      (p.exec env).2.names = ["k", "x", "y"] ∧ env.names <+: (p.exec env).2.names ∧
      (p.exec env).2.get "k" = env.get "k" := by
  have hfails : (Program.exec (Environment.empty.assign "k" (.int 7)) ⟨"f", [⟨.int, "a"⟩],
      [.declare .int "x", .block [.assign "y" (.literal .int "1"),
        .assign "x" (.binary .add (.var "y") (.literal .float "1.5")),
        .declare .float "z"]]⟩).1 = .error (.typeMismatch "+" "int" "float") := by rfl
  obtain ⟨executed, -, -, hstop, hprefix, hget⟩ := Program.exec_stops_between
    (Environment.empty.assign "k" (.int 7)) ⟨"f", [⟨.int, "a"⟩],
      [.declare .int "x", .block [.assign "y" (.literal .int "1"),
        .assign "x" (.binary .add (.var "y") (.literal .float "1.5")), .declare .float "z"]]⟩
  obtain ⟨s, hs⟩ := hstop _ hfails
  have hbinds : ∀ s' ∈ executed, s'.bound? ≠ some "k" := by
    have hbody : ∀ s' ∈ Stmt.flattenAll [.declare .int "x",
        .block [.assign "y" (.literal .int "1"),
          .assign "x" (.binary .add (.var "y") (.literal .float "1.5")), .declare .float "z"]],
        s'.bound? ≠ some "k" := by decide +kernel
    obtain ⟨after, hsplit⟩ := hs.split
    intro s' hs'
    refine hbody s' ?_
    rw [hsplit]
    exact List.mem_append_left _ hs'
  exact ⟨_, _, executed, s, rfl, rfl, hfails, hs, rfl, hprefix, hget "k" hbinds⟩

end Abacus
