import Abacus.Evaluation
import Abacus.Proofs.Safety.Names
import Abacus.Proofs.Trees.Parts
import Abacus.Proofs.Writing.Writable
import Abacus.Run

/-!
# What passes the check is bound when it runs

The declaration check and evaluation walk over the same statements with a store each. The stores
`Agree` if they have the same names in the same order. A statement that passes the check keeps them
in agreement or stops with a fault of its values (`Stmt.safe_exec`): two operands of different
types, or a literal that is no number. The check has then seen to it that every name that is read
has a value and that no name that is declared has one.

The literals of a program that was read are numbers (`Stmt.readable_of_writable`), since the kind of
a numeral is found by reading it. So for such a program only the types of operands are left
(`binding_safety`).
-/

namespace Abacus

open Decimal

/-! ## Literals -/

/-- The text is a number of the type. -/
def Readable (literal : NumType × String) : Prop :=
  ∃ value, Value.ofLiteral literal.1 literal.2 = .ok value

theorem readable_of_numeralKind? {type : NumType} {text : String}
    (h : numeralKind? text = some type.numeral) : Readable (type, text) := by
  unfold numeralKind? at h
  unfold Readable Value.ofLiteral
  cases type with
  | int =>
    by_cases hint : (readInt? text).isSome
    · obtain ⟨z, hz⟩ := Option.isSome_iff_exists.mp hint
      exact ⟨.int z, by simp [hz]⟩
    · rw [if_neg hint] at h
      split at h <;> cases h
  | float =>
    by_cases hint : (readInt? text).isSome
    · rw [if_pos hint] at h
      cases h
    · rw [if_neg hint] at h
      split at h
      · rename_i hnum
        obtain ⟨n, hn⟩ := Option.isSome_iff_exists.mp hnum
        exact ⟨.float n.toFloat, by simp [hn]⟩
      · cases h

/-- A text that is read as a numeral is a number: neither a word nor a mark has that kind. -/
theorem readable_of_isNumeral {type : NumType} {text : String} (h : IsNumeral type text) :
    Readable (type, text) := by
  obtain ⟨c, cs, htext, hlex⟩ := h
  refine readable_of_numeralKind? ?_
  have hword : ∀ word, wordKind word ≠ type.numeral := by
    intro word
    unfold wordKind
    cases type <;> repeat' split
    all_goals nofun
  have hmark : markKind? c ≠ some type.numeral := by
    unfold markKind?
    cases type <;> split <;> nofun
  unfold lexeme at hlex
  simp only at hlex
  split at hlex
  · simp only [Except.ok.injEq, Prod.mk.injEq] at hlex
    exact absurd hlex.1 (hword _)
  · split at hlex
    · split at hlex
      · rename_i kind hkind
        simp only [Except.ok.injEq, Prod.mk.injEq] at hlex
        rw [hlex.2, ← htext, String.ofList_toList] at hkind
        rw [hkind, hlex.1]
      · cases hlex
    · split at hlex
      · rename_i kind hkind
        simp only [Except.ok.injEq, Prod.mk.injEq] at hlex
        exact absurd (hkind.trans (congrArg some hlex.1)) hmark
      · cases hlex

theorem Expr.readable_of_writable {e : Expr} (h : e.Writable) :
    ∀ l ∈ e.literals, Readable l := by
  induction e with
  | literal type text => exact List.forall_mem_singleton.mpr (readable_of_isNumeral h)
  | var name => nofun
  | unary op operand ih => exact ih h
  | binary op left right ihl ihr => exact List.forall_mem_append.mpr ⟨ihl h.1, ihr h.2⟩

namespace Stmt

mutual

/-- The literals of a writable statement are numbers. -/
theorem readable_of_writable : ∀ s : Stmt, s.Writable → ∀ l ∈ s.literals, Readable l
  | .declare _ _, _ => nofun
  | .assign _ _, h => Expr.readable_of_writable h.2
  | .block body, h => by
    rcases h with rfl | ⟨-, hall⟩
    · nofun
    · exact readable_of_allWritable body hall

theorem readable_of_allWritable : ∀ ss : List Stmt, AllWritable ss →
    ∀ l ∈ literalsAll ss, Readable l
  | [], _ => nofun
  | s :: ss, h =>
    List.forall_mem_append.mpr ⟨readable_of_writable s h.1, readable_of_allWritable ss h.2⟩

end

end Stmt

/-! ## Faults of values -/

/-- Operands of two types meet, or one of the literals is no number. -/
inductive ValueFault (literals : List (NumType × String)) : Fault → Prop
  | mismatch (op : BinaryOp) {left right : NumType} (hne : left ≠ right) :
      ValueFault literals (.typeMismatch op.symbol left.name right.name)
  | numeral {type : NumType} {text : String} (hmem : (type, text) ∈ literals)
      (hfault : Value.ofLiteral type text = .error (.malformedNumeral text)) :
      ValueFault literals (.malformedNumeral text)

theorem ValueFault.mono {ls ls' : List (NumType × String)} {fault : Fault}
    (h : ValueFault ls fault) (hsub : ∀ l ∈ ls, l ∈ ls') : ValueFault ls' fault := by
  cases h with
  | mismatch op hne => exact .mismatch op hne
  | numeral hmem hfault => exact .numeral (hsub _ hmem) hfault

/-- If the literals are numbers, only the types of operands can be at fault. -/
theorem ValueFault.of_readable {ls : List (NumType × String)} {fault : Fault}
    (h : ValueFault ls fault) (hls : ∀ l ∈ ls, Readable l) :
    ∃ op l r, fault = .typeMismatch op l r := by
  cases h with
  | mismatch op _ => exact ⟨_, _, _, rfl⟩
  | numeral hmem hfault =>
    obtain ⟨value, hvalue⟩ := hls _ hmem
    exact absurd (hfault.symm.trans hvalue) nofun

theorem Value.ofLiteral_eq_error {type : NumType} {text : String} {fault : Fault}
    (h : Value.ofLiteral type text = .error fault) : fault = .malformedNumeral text := by
  unfold Value.ofLiteral at h
  simp only at h
  split at h
  · cases h
  · exact (Except.error.inj h).symm

theorem except_bind_eq_error {ε α β : Type} {x : Except ε α} {f : α → Except ε β} {e : ε} :
    (x >>= f) = .error e ↔ x = .error e ∨ ∃ a, x = .ok a ∧ f a = .error e := by
  cases x <;> simp [bind, Except.bind]

/-- An expression whose names have values can only fail by its values. -/
theorem Expr.valueFault_of_eval {e : Expr} {env : Environment} {fault : Fault}
    (hvars : ∀ x ∈ e.vars, x ∈ env.names) (h : e.eval env = .error fault) :
    ValueFault e.literals fault := by
  induction e with
  | literal type text =>
    rw [eval] at h
    obtain rfl := Value.ofLiteral_eq_error h
    exact .numeral List.mem_cons_self h
  | var name =>
    obtain ⟨value, hvalue⟩ := Environment.get_of_mem (hvars name List.mem_cons_self)
    exact absurd (hvalue.symm.trans h) nofun
  | unary op operand ih =>
    rw [eval, except_bind_eq_error] at h
    rcases h with h | ⟨_, _, h⟩
    · exact ih hvars h
    · cases h
  | binary op left right ihl ihr =>
    obtain ⟨hl, hr⟩ := List.forall_mem_append.mp hvars
    rw [eval, except_bind_eq_error] at h
    rcases h with h | ⟨l, -, h⟩
    · exact (ihl hl h).mono fun _ => List.mem_append_left _
    · rw [except_bind_eq_error] at h
      rcases h with h | ⟨r, -, h⟩
      · exact (ihr hr h).mono fun _ => List.mem_append_right _
      · unfold Value.binary at h
        split at h
        · cases h
        · rename_i hne
          cases h
          exact .mismatch op hne

/-! ## The two walks -/

/-- The stores have the same names in the same order. -/
structure Agree (t : ScopeTree) (env : Environment) : Prop where
  flat : t.Flat
  names : t.names = env.names

theorem agree_initial : Agree .initial .empty := ⟨ScopeTree.flat_initial, rfl⟩

/-- The step leaves an environment that agrees with the tree, or stops at a fault of values. -/
inductive Safe (t : ScopeTree) (literals : List (NumType × String)) :
    Attempt Fault Environment Value → Prop
  | done {value : Value} {env : Environment} (h : Agree t env) : Safe t literals (.ok value, env)
  | failed {fault : Fault} {env : Environment} (h : ValueFault literals fault) :
      Safe t literals (.error fault, env)

theorem Safe.mono {t : ScopeTree} {ls ls' : List (NumType × String)}
    {a : Attempt Fault Environment Value} (h : Safe t ls a) (hsub : ∀ l ∈ ls, l ∈ ls') :
    Safe t ls' a := by
  cases h with
  | done h => exact .done h
  | failed h => exact .failed (h.mono hsub)

namespace Stmt

variable {t t' : ScopeTree} {env : Environment} {u : Unit}

theorem safe_declare {type : NumType} {name : String} (h : Agree t env)
    (hc : (declare type name).check t = (.ok u, t')) :
    Safe t' (declare type name).literals ((declare type name).exec env) := by
  obtain ⟨hnew, hflat, hnames⟩ := h.flat.of_check_declare hc
  rw [h.names] at hnew
  rw [exec, Environment.declare_of_not_mem hnew, Attempt.andThen_ok]
  refine .done ⟨hflat, ?_⟩
  rw [hnames, h.names, Environment.names_push]

theorem safe_assign {target : String} {value : Expr} (h : Agree t env)
    (hc : (assign target value).check t = (.ok u, t')) :
    Safe t' (assign target value).literals ((assign target value).exec env) := by
  obtain ⟨htarget, hvars, hflat, hnames⟩ := h.flat.of_check_assign hc
  rw [h.names] at htarget hvars hnames
  rw [exec]
  cases hv : value.eval env with
  | ok v =>
    refine .done ⟨hflat, ?_⟩
    rw [hnames, Environment.names_assign htarget]
  | error fault =>
    rw [literals]
    exact .failed (Expr.valueFault_of_eval hvars hv)

mutual

/-- **A statement that passes the check runs safely** from stores that agree. -/
theorem safe_exec : ∀ (s : Stmt) {t t' : ScopeTree} {env : Environment} {u : Unit}, Agree t env →
    s.check t = (.ok u, t') → Safe t' s.literals (s.exec env)
  | .declare _ _, _, _, _, _, h, hc => safe_declare h hc
  | .assign _ _, _, _, _, _, h, hc => safe_assign h hc
  | .block body, _, _, _, _, h, hc => by
    rw [check] at hc
    rw [exec, literals]
    exact safe_execAll body _ h hc
  | .empty, _, _, _, _, h, hc => by
    rw [check] at hc
    cases hc
    exact .done h

theorem safe_execAll : ∀ (ss : List Stmt) (last : Value) {t t' : ScopeTree} {env : Environment}
    {u : Unit}, Agree t env → checkAll t ss = (.ok u, t') →
    Safe t' (literalsAll ss) (execAll env last ss)
  | [], _, _, _, _, _, h, hc => by
    rw [checkAll] at hc
    cases hc
    exact .done h
  | s :: ss, _, t, t', env, u, h, hc => by
    rw [checkAll] at hc
    rw [execAll, literalsAll]
    rcases hs : s.check t with ⟨_ | _, t₁⟩
    · rw [hs] at hc
      cases hc
    · rw [hs, Attempt.andThen_ok] at hc
      have hsafe := safe_exec s h hs
      generalize s.exec env = a at hsafe
      cases hsafe with
      | done h₁ => exact (safe_execAll ss _ h₁ hc).mono fun _ => List.mem_append_right _
      | failed hf => exact .failed (hf.mono fun _ => List.mem_append_left _)

end

end Stmt

namespace Program

/-- A program that passes the check has a value or a fault of its values. -/
theorem valueFault_of_check {p : Program} {t : ScopeTree} {fault : Fault} (hc : p.check = .ok t)
    (he : p.evaluate = .error fault) : ValueFault (Stmt.literalsAll p.body) fault := by
  unfold check checkIn at hc
  unfold evaluate exec at he
  split at hc
  · rename_i hall
    have hsafe := Stmt.safe_execAll p.body (.int 0) agree_initial hall
    rw [Stmt.exec] at he
    generalize Stmt.execAll .empty (.int 0) p.body = a at hsafe he
    cases hsafe with
    | done => cases he
    | failed hf =>
      cases he
      exact hf
  · cases hc

theorem evaluate_of_check {p : Program} {t : ScopeTree} (hc : p.check = .ok t)
    (hread : ∀ l ∈ Stmt.literalsAll p.body, Readable l) :
    (∃ e, p.evaluate = .ok e) ∨ ∃ op l r, p.evaluate = .error (.typeMismatch op l r) := by
  cases he : p.evaluate with
  | ok e => exact Or.inl ⟨e, rfl⟩
  | error fault =>
    obtain ⟨op, l, r, rfl⟩ := (valueFault_of_check hc he).of_readable hread
    exact Or.inr ⟨op, l, r, rfl⟩

/-- The literals of a program that was read are numbers. -/
theorem readable_of_parse {text : String} {file : Option String} {p : Program}
    (h : Program.parse text file = .ok p) : ∀ l ∈ Stmt.literalsAll p.body, Readable l := by
  have hread := Stmt.readable_of_writable _ (writable_of_parse h).body
  rwa [Stmt.literals] at hread

end Program

/-! ## The faults of the other passes -/

theorem ScopeTree.phase_of_updateSymbol {t t' : ScopeTree} {name : String} {f : Symbol → Symbol}
    {fault : Fault} (h : t.updateSymbol name f = (.error fault, t')) : fault.phase = .semantic := by
  unfold updateSymbol at h
  split at h <;> cases h
  rfl

namespace Stmt

mutual

/-- The check finds only semantic faults. -/
theorem phase_of_check : ∀ (s : Stmt) {t t' : ScopeTree} {fault : Fault},
    s.check t = (.error fault, t') → fault.phase = .semantic
  | .declare _ _, _, _, _, h => by
    rw [check, ScopeTree.define] at h
    split at h <;> cases h
    rfl
  | .assign target value, t, _, _, h => by
    rw [check_assign] at h
    cases hfind : (target :: value.vars).find? fun x => (t.lookup? x).isNone with
    | some name =>
      rw [hfind] at h
      cases h
      rfl
    | none =>
      rw [hfind] at h
      exact ScopeTree.phase_of_updateSymbol h
  | .block body, _, _, _, h => phase_of_checkAll body (by rwa [check] at h)
  | .empty, _, _, _, h => by rw [check] at h; cases h

theorem phase_of_checkAll : ∀ (ss : List Stmt) {t t' : ScopeTree} {fault : Fault},
    checkAll t ss = (.error fault, t') → fault.phase = .semantic
  | [], _, _, _, h => by rw [checkAll] at h; cases h
  | s :: ss, t, _, _, h => by
    rw [checkAll] at h
    rcases hs : s.check t with ⟨_ | _, t₁⟩
    · rw [hs, Attempt.andThen_error] at h
      cases h
      exact phase_of_check s hs
    · rw [hs, Attempt.andThen_ok] at h
      exact phase_of_checkAll ss h

end

end Stmt

namespace Program

theorem phase_of_check {p : Program} {fault : Fault} (h : p.check = .error fault) :
    fault.phase = .semantic := by
  unfold check checkIn at h
  split at h
  · cases h
  · rename_i hall
    cases h
    exact Stmt.phase_of_checkAll p.body hall

/-- Reading finds only lexical and syntactic faults. -/
theorem phase_of_parse {text : String} {file : Option String} {d : Diagnostic}
    (h : Program.parse text file = .error d) :
    d.fault.phase = .lexical ∨ d.fault.phase = .syntactic := by
  rcases parse_error_cases h with hunread | ⟨before, t, hstops⟩
  · exact .inl hunread.phase
  · exact .inr hstops.offends.phase

/-- **What can end a run**: a fault of reading, or one of the two passes without places. -/
theorem run_error_cases {text : String} {file : Option String} {d : Diagnostic}
    (h : Program.run text file = .error d) :
    Program.parse text file = .error d ∨
    ∃ p fault, Program.parse text file = .ok p ∧ d = .unplaced fault ∧
      (p.check = .error fault ∨ ∃ t, p.check = .ok t ∧ p.evaluate = .error fault) := by
  cases hp : Program.parse text file with
  | error d' =>
    rw [run_of_parse_error hp] at h
    cases h
    exact .inl rfl
  | ok p =>
    cases hc : p.check with
    | error fault =>
      rw [run_of_parse hp, hc] at h
      cases h
      exact .inr ⟨p, fault, rfl, rfl, .inl hc⟩
    | ok t =>
      rw [run_of_check hp hc] at h
      cases he : p.evaluate with
      | error fault =>
        rw [he] at h
        cases h
        exact .inr ⟨p, fault, rfl, rfl, .inr ⟨t, hc, he⟩⟩
      | ok e =>
        rw [he] at h
        cases h

/-- A text that fails when it runs was read and passed the check. -/
theorem evaluate_of_run {text : String} {file : Option String} {d : Diagnostic}
    (h : Program.run text file = .error d) (hphase : d.fault.phase = .runtime) :
    ∃ p t, Program.parse text file = .ok p ∧ p.check = .ok t ∧ p.evaluate = .error d.fault := by
  rcases run_error_cases h with hp | ⟨p, fault, hp, rfl, hc | ⟨t, hc, he⟩⟩
  · rcases phase_of_parse hp with h' | h' <;> exact absurd (hphase.symm.trans h') nofun
  · exact absurd (hphase.symm.trans (phase_of_check hc)) nofun
  · exact ⟨p, t, hp, hc, he⟩

end Program

/-- **What passes the check is bound when it runs.** It never reads a name without a value or
declares one that has a value; if it was also read from a text, it runs to its end or meets operands
of different types, and this is the only runtime fault of a text. -/
theorem binding_safety :
    (∀ (p : Program) (t : ScopeTree), p.check = .ok t →
      ∀ x, p.evaluate ≠ .error (.unbound x) ∧ p.evaluate ≠ .error (.alreadyBound x)) ∧
    (∀ (text : String) (file : Option String) (p : Program) (t : ScopeTree),
      Program.parse text file = .ok p → p.check = .ok t →
        (∃ e, p.evaluate = .ok e) ∨ ∃ op l r, p.evaluate = .error (.typeMismatch op l r)) ∧
    ∀ (text : String) (file : Option String) (d : Diagnostic), Program.run text file = .error d →
      d.fault.phase = .runtime → ∃ op l r, d.fault = .typeMismatch op l r := by
  refine ⟨fun p t hc x => ⟨fun he => ?_, fun he => ?_⟩, fun text file p t hp hc => ?_,
    fun text file d hr hphase => ?_⟩
  · nomatch Program.valueFault_of_check hc he
  · nomatch Program.valueFault_of_check hc he
  · exact Program.evaluate_of_check hc (Program.readable_of_parse hp)
  · obtain ⟨p, t, hp, hc, he⟩ := Program.evaluate_of_run hr hphase
    exact (Program.valueFault_of_check hc he).of_readable (Program.readable_of_parse hp)

/-- A checked text can still fail: an `int` does not go with a `float`. -/
theorem binding_safety_mismatch :
    ∃ p t d, Program.parse "function f(int a)\x7bint x;float y;\x7by=x*y;\x7d\x7d" none = .ok p ∧
      p.check = .ok t ∧ p.evaluate ≠ .error (.unbound "x") ∧
      Program.run "function f(int a)\x7bint x;float y;\x7by=x*y;\x7d\x7d" none = .error d ∧
      d.fault.phase = .runtime ∧ ∃ op l r, d.fault = .typeMismatch op l r := by
  have hc : Program.check ⟨"f", [⟨.int, "a"⟩], [.declare .int "x", .declare .float "y",
      .block [.assign "y" (.binary .mul (.var "x") (.var "y"))]]⟩ =
      .ok ⟨#[⟨"GLOBAL", none, [("x", ⟨.int, false, none⟩), ("y", ⟨.float, true, none⟩)], []⟩],
        0⟩ := by decide +kernel
  have he : Program.evaluate ⟨"f", [⟨.int, "a"⟩], [.declare .int "x", .declare .float "y",
      .block [.assign "y" (.binary .mul (.var "x") (.var "y"))]]⟩ =
      .error (.typeMismatch "*" "int" "float") := by rfl
  have hp : Program.parse "function f(int a)\x7bint x;float y;\x7by=x*y;\x7d\x7d" none =
      .ok ⟨"f", [⟨.int, "a"⟩], [.declare .int "x", .declare .float "y",
        .block [.assign "y" (.binary .mul (.var "x") (.var "y"))]]⟩ := by decide +kernel
  have hr := Program.run_of_check hp hc
  rw [he] at hr
  exact ⟨_, _, _, hp, hc, (binding_safety.1 _ _ hc "x").1, hr, rfl, binding_safety.2.2 _ _ _ hr rfl⟩

end Abacus
