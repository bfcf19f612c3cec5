import Abacus.Proofs.Safety.Binding

/-!
# Types are found without numbers

Running a program on types alone: a value is replaced by its type, an environment by its names with
their types, and a literal by the type it is written for. `Expr.typeIn`, `Stmt.typeIn` and
`Stmt.typeAll` are this run. It never looks at a number or at the text of a literal.

* `Expr.types_eval`, `Stmt.types_exec` — evaluation, seen through types, is the run on types, as
  long as the literals are numbers: no result of arithmetic can change which fault arises or which
  name is bound.
* `exec_types_of_masked` — so two programs that differ in the texts of their literals only fail
  alike or succeed alike.
-/

namespace Abacus

open Decimal

/-! ## Environments of types -/

/-- Names with their types, in order of their first binding. -/
abbrev Typing := List (String × NumType)

namespace Typing

/-- The type of a name. -/
def get (Γ : Typing) (name : String) : Except Fault NumType :=
  match Γ.find? (·.1 == name) with
  | some (_, type) => .ok type
  | none => .error (.unbound name)

/-- Gives a new name its type. -/
def declare (Γ : Typing) (name : String) (type : NumType) : Attempt Fault Typing Unit :=
  if name ∈ Γ.map Prod.fst then (.error (.alreadyBound name), Γ) else (.ok (), Γ ++ [(name, type)])

/-- Gives a name a type, in its place if it has one and at the end otherwise. -/
def assign (Γ : Typing) (name : String) (type : NumType) : Typing :=
  match Γ.findIdx? (·.1 == name) with
  | some slot => Γ.set slot (name, type)
  | none => Γ ++ [(name, type)]

end Typing

/-! ## Running on types -/

/-- The type of an expression, left operands first. -/
def Expr.typeIn (Γ : Typing) : Expr → Except Fault NumType
  | literal type _ => .ok type
  | var name => Γ.get name
  | unary _ operand => operand.typeIn Γ
  | binary op left right => do
    let l ← left.typeIn Γ
    let r ← right.typeIn Γ
    if l = r then .ok l else .error (.typeMismatch op.symbol l.name r.name)

namespace Stmt

mutual

/-- Runs a statement on types. -/
def typeIn (Γ : Typing) : Stmt → Attempt Fault Typing NumType
  | .declare type name => (Γ.declare name type).andThen fun _ Γ' => (.ok type, Γ')
  | .assign target value =>
    match value.typeIn Γ with
    | .ok type => (.ok type, Γ.assign target type)
    | .error fault => (.error fault, Γ)
  | .block body => typeAll Γ .int body
  | .empty => (.ok .int, Γ)

/-- Runs statements on types in order; `last` is the type if there are none. -/
def typeAll (Γ : Typing) (last : NumType) : List Stmt → Attempt Fault Typing NumType
  | [] => (.ok last, Γ)
  | s :: ss => (s.typeIn Γ).andThen fun type Γ' => typeAll Γ' type ss

end

end Stmt

/-! ## What is left without numbers -/

/-- The names of an environment with the types of their values. -/
def Environment.types (env : Environment) : Typing := env.bindings.map fun b => (b.1, b.2.type)

/-- An attempt without its numbers. -/
def Attempt.types (a : Attempt Fault Environment Value) : Attempt Fault Typing NumType :=
  (a.1.map Value.type, a.2.types)

namespace Environment

theorem names_types (env : Environment) : env.types.map Prod.fst = env.names := by
  simp [types, names]

theorem types_get (env : Environment) (name : String) :
    (env.get name).map Value.type = env.types.get name := by
  rw [get_eq_find?, Typing.get, types, List.find?_map]
  have hcomp : ((·.1 == name) ∘ fun b : String × Value => (b.1, b.2.type)) =
      fun b => b.1 == name := rfl
  rw [hcomp]
  cases env.bindings.find? fun b => b.1 == name <;> rfl

theorem types_push (env : Environment) (name : String) (value : Value)
    (hnew : env.slot? name = none) :
    (env.push name value hnew).types = env.types ++ [(name, value.type)] := by
  simp [types, push]

/-- A value put in the slot of a name puts its type there. -/
theorem types_store {env : Environment} {name : String} {slot : Nat}
    (h : env.slot? name = some slot) (value : Value) :
    (env.store slot value).types = env.types.set slot (name, value.type) := by
  obtain ⟨old, hold⟩ := slot?_eq_some_iff.mp h
  obtain ⟨hlt, hget⟩ := List.getElem?_eq_some_iff.mp hold
  apply List.ext_getElem?
  intro i
  unfold types
  rw [List.getElem?_map, getElem?_store, List.getElem?_set]
  by_cases hi : slot = i
  · subst hi
    simp [hget, hlt]
  · simp [hi]

theorem types_assign (env : Environment) (name : String) (value : Value) :
    (env.assign name value).types = env.types.assign name value.type := by
  have hslot : env.types.findIdx? (·.1 == name) = env.slot? name := by
    rw [types, List.findIdx?_map, slot?_eq_findIdx?]
    rfl
  rw [Typing.assign, hslot]
  cases h : env.slot? name with
  | none =>
    rw [assign_of_not_mem (slot?_eq_none_iff.mp h)]
    exact types_push env name value h
  | some slot =>
    rw [assign_of_slot? h]
    exact types_store h value

end Environment

/-! ## Evaluation through types -/

namespace Value

theorem type_unary (op : UnaryOp) (v : Value) : (v.unary op).type = v.type := by
  cases op <;> rfl

theorem types_binary (op : BinaryOp) (l r : Value) :
    (l.binary op r).map Value.type =
      if l.type = r.type then .ok l.type
      else .error (.typeMismatch op.symbol l.type.name r.type.name) := by
  rw [binary]
  split <;> rfl

/-- A literal that is a number has the type it is written for. -/
theorem types_ofLiteral {type : NumType} {text : String} (h : Readable (type, text)) :
    (ofLiteral type text).map Value.type = .ok type := by
  obtain ⟨v, hv⟩ := h
  unfold ofLiteral at hv ⊢
  cases type with
  | int =>
    cases hz : readInt? text with
    | none => simp [hz] at hv
    | some z => rfl
  | float =>
    cases hn : readNumeral? text with
    | none => simp [hn] at hv
    | some n => rfl

end Value

/-- **The type of a value is found without it.** -/
theorem Expr.types_eval {e : Expr} (h : ∀ l ∈ e.literals, Readable l) (env : Environment) :
    (e.eval env).map Value.type = e.typeIn env.types := by
  induction e with
  | literal type text => exact Value.types_ofLiteral (h _ List.mem_cons_self)
  | var name => exact env.types_get name
  | unary op operand ih =>
    rw [eval, typeIn, ← ih h]
    cases operand.eval env with
    | error fault => rfl
    | ok v => exact congrArg Except.ok (Value.type_unary op v)
  | binary op left right ihl ihr =>
    obtain ⟨hl, hr⟩ := List.forall_mem_append.mp h
    rw [eval, typeIn, ← ihl hl, ← ihr hr]
    cases left.eval env with
    | error fault => rfl
    | ok l =>
      cases right.eval env with
      | error fault => rfl
      | ok r => exact Value.types_binary op l r

namespace Stmt

theorem types_declare (env : Environment) (type : NumType) (name : String) :
    Attempt.types ((declare type name).exec env) = (declare type name).typeIn env.types := by
  rw [exec, typeIn, Typing.declare, env.names_types]
  by_cases h : name ∈ env.names
  · rw [if_pos h, Environment.declare_of_mem h]
    rfl
  · rw [if_neg h, Environment.declare_of_not_mem h]
    exact congrArg (Prod.mk _) (env.types_push name (Value.zero type)
      (Environment.slot?_eq_none_iff.mpr h))

mutual

/-- **The outcome of a statement, without its numbers, is that of the run on types.** -/
theorem types_exec : ∀ (s : Stmt) (env : Environment), (∀ l ∈ s.literals, Readable l) →
    Attempt.types (s.exec env) = s.typeIn env.types
  | .declare type name, env, _ => types_declare env type name
  | .assign target value, env, h => by
    have hvalue := value.types_eval h env
    rw [exec, typeIn, ← hvalue]
    cases value.eval env with
    | error fault => rfl
    | ok v => exact congrArg (Prod.mk _) (env.types_assign target v)
  | .block body, env, h => by
    rw [exec, typeIn]
    exact types_execAll body env (.int 0) h
  | .empty, env, _ => by
    rw [exec, typeIn]
    rfl

theorem types_execAll : ∀ (ss : List Stmt) (env : Environment) (last : Value),
    (∀ l ∈ literalsAll ss, Readable l) →
    Attempt.types (execAll env last ss) = typeAll env.types last.type ss
  | [], env, last, _ => by
    rw [execAll, typeAll]
    rfl
  | s :: ss, env, last, h => by
    obtain ⟨hs, hss⟩ := List.forall_mem_append.mp h
    have hfirst := types_exec s env hs
    rw [execAll, typeAll, ← hfirst]
    rcases s.exec env with ⟨fault | v, env'⟩
    · rfl
    · exact types_execAll ss env' v hss

end

end Stmt

/-! ## Programs that differ in their numbers -/

/-- The expression without the texts of its literals. -/
def Expr.masked : Expr → Expr
  | literal type _ => literal type ""
  | var name => var name
  | unary op operand => unary op operand.masked
  | binary op left right => binary op left.masked right.masked

namespace Stmt

mutual

/-- The statement without the texts of its literals. -/
def masked : Stmt → Stmt
  | .declare type name => .declare type name
  | .assign target value => .assign target value.masked
  | .block body => .block (maskedAll body)
  | .empty => .empty

/-- The statements without the texts of their literals. -/
def maskedAll : List Stmt → List Stmt
  | [] => []
  | s :: ss => s.masked :: maskedAll ss

end

end Stmt

/-- The program without the texts of its literals. -/
def Program.masked (p : Program) : Program := { p with body := Stmt.maskedAll p.body }

/-- The run on types does not look at the texts of literals. -/
theorem Expr.typeIn_masked (Γ : Typing) (e : Expr) : e.masked.typeIn Γ = e.typeIn Γ := by
  induction e with
  | literal type text => rfl
  | var name => rfl
  | unary op operand ih => exact ih
  | binary op left right ihl ihr => rw [masked, typeIn, typeIn, ihl, ihr]

namespace Stmt

mutual

theorem typeIn_masked : ∀ (s : Stmt) (Γ : Typing), s.masked.typeIn Γ = s.typeIn Γ
  | .declare _ _, _ => rfl
  | .assign _ value, Γ => by rw [masked, typeIn, typeIn, value.typeIn_masked]
  | .block body, Γ => by rw [masked, typeIn, typeIn, typeAll_maskedAll body]
  | .empty, _ => rfl

theorem typeAll_maskedAll : ∀ (ss : List Stmt) (Γ : Typing) (last : NumType),
    typeAll Γ last (maskedAll ss) = typeAll Γ last ss
  | [], _, _ => rfl
  | s :: ss, Γ, last => by
    rw [maskedAll, typeAll, typeAll, typeIn_masked s]
    rcases s.typeIn Γ with ⟨fault | type, Γ'⟩
    · rfl
    · exact typeAll_maskedAll ss Γ' type

end

end Stmt

theorem Program.types_exec {p : Program} (h : ∀ l ∈ p.literals, Readable l) (env : Environment) :
    Attempt.types (p.exec env) = Stmt.typeAll env.types .int (Stmt.maskedAll p.body) := by
  rw [Stmt.typeAll_maskedAll, Program.exec, Stmt.exec]
  exact Stmt.types_execAll p.body env (.int 0) h

/-- Answers that agree in their types fail alike or succeed alike. -/
theorem alike_of_types_eq {a b : Except Fault Value} (h : a.map Value.type = b.map Value.type) :
    (∃ fault, a = .error fault ∧ b = .error fault) ∨
      ∃ v w, a = .ok v ∧ b = .ok w ∧ v.type = w.type := by
  cases a with
  | error fault =>
    cases b with
    | error fault' =>
      cases h
      exact Or.inl ⟨fault, rfl, rfl⟩
    | ok w => cases h
  | ok v =>
    cases b with
    | error fault => cases h
    | ok w => exact Or.inr ⟨v, w, rfl, rfl, Except.ok.inj h⟩

/-- **The outcome does not depend on numbers.** Two programs that differ in the texts of their
literals only, run where the same names have values of the same types, fail with the same fault or
succeed with values of one type, and leave the same names with the same types. -/
theorem exec_types_of_masked {p q : Program} {env env' : Environment} (hpq : p.masked = q.masked)
    (hp : ∀ l ∈ p.literals, Readable l) (hq : ∀ l ∈ q.literals, Readable l)
    (henv : env.types = env'.types) :
    ((∃ fault, (p.exec env).1 = .error fault ∧ (q.exec env').1 = .error fault) ∨
      ∃ v w, (p.exec env).1 = .ok v ∧ (q.exec env').1 = .ok w ∧ v.type = w.type) ∧
    (p.exec env).2.types = (q.exec env').2.types := by
  have hbody : Stmt.maskedAll p.body = Stmt.maskedAll q.body := congrArg Program.body hpq
  have hsame : Attempt.types (p.exec env) = Attempt.types (q.exec env') := by
    rw [Program.types_exec hp, Program.types_exec hq, hbody, henv]
  obtain ⟨hanswer, htypes⟩ := Prod.mk.inj hsame
  exact ⟨alike_of_types_eq hanswer, htypes⟩

/-- A division by zero goes on like any other, up to the operands of different types. -/
theorem exec_types_of_masked_quotient :
    ∃ (p q : Program) (env env' : Environment),
      p.literals = [(.int, "1"), (.int, "0")] ∧ q.literals = [(.int, "1"), (.int, "2")] ∧
      p.masked = q.masked ∧ (∀ l ∈ p.literals, Readable l) ∧ (∀ l ∈ q.literals, Readable l) ∧
      env.types = [("z", .float)] ∧ env'.types = [("z", .float)] ∧
      ((∃ fault, (p.exec env).1 = .error fault ∧ (q.exec env').1 = .error fault) ∨
        ∃ v w, (p.exec env).1 = .ok v ∧ (q.exec env').1 = .ok w ∧ v.type = w.type) ∧
      (p.exec env).2.types = (q.exec env').2.types := by
  have hkinds : ∀ text ∈ ["0", "2"], ∀ l ∈ [(NumType.int, "1"), (NumType.int, text)],
      numeralKind? l.2 = some l.1.numeral := by decide +kernel
  have hp : ∀ l ∈ [(NumType.int, "1"), (NumType.int, "0")], Readable l :=
    fun l hl => readable_of_numeralKind? (hkinds "0" (by decide) l hl)
  have hq : ∀ l ∈ [(NumType.int, "1"), (NumType.int, "2")], Readable l :=
    fun l hl => readable_of_numeralKind? (hkinds "2" (by decide) l hl)
  refine ⟨⟨"f", [⟨.int, "a"⟩], [.declare .int "x",
      .block [.assign "x" (.binary .div (.literal .int "1") (.literal .int "0"))],
      .assign "y" (.binary .mul (.var "x") (.var "z"))]⟩,
    ⟨"f", [⟨.int, "a"⟩], [.declare .int "x",
      .block [.assign "x" (.binary .div (.literal .int "1") (.literal .int "2"))],
      .assign "y" (.binary .mul (.var "x") (.var "z"))]⟩,
    Environment.empty.assign "z" (.zero .float), Environment.empty.assign "z" (.float 2.5),
    rfl, rfl, rfl, hp, hq, rfl, rfl, ?_⟩
  exact exec_types_of_masked rfl hp hq rfl

end Abacus
