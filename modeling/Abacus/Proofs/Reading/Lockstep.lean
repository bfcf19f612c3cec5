import Abacus.Proofs.Reading.Productions

/-!
# Productions in lockstep

A production reads the kind and the text of the current token, and changes the parser by advancing.
So two parsers that show the same terminals all along are treated alike: if a relation between
parsers sees to that (`Lockstep`), every production keeps it and answers the same on both sides, up
to the places of tokens (`Lockstep.production`).

What advancing keeps of a single parser is the special case of a parser beside itself
(`Kept.production`).
-/

namespace Abacus.Parser

variable {α β : Type} {R : Parser → Parser → Prop} {V : α → α → Prop} {W : β → β → Prop}
  {p q : Parser} {n : Nat}

/-- Two attempts that leave related parsers, with related answers or with the same fault. -/
inductive Agree (R : Parser → Parser → Prop) (V : α → α → Prop) :
    Attempt Diagnostic Parser α → Attempt Diagnostic Parser α → Prop
  | ok {x y : α} {p q : Parser} (hv : V x y) (hr : R p q) : Agree R V (.ok x, p) (.ok y, q)
  | error {d e : Diagnostic} {p q : Parser} (hfault : d.fault = e.fault) (hr : R p q) :
      Agree R V (.error d, p) (.error e, q)

/-- The tokens are the same but for their places. -/
def SameText (t u : Token) : Prop := t.terminal = u.terminal

/-- **Related parsers show the same terminal**, and stay related when both advance. -/
structure Lockstep (R : Parser → Parser → Prop) : Prop where
  current : ∀ ⦃p q⦄, R p q → SameText p.current q.current
  advance : ∀ ⦃p q⦄, R p q → Agree R SameText p.advance q.advance

theorem Agree.andThen {a b : Attempt Diagnostic Parser α}
    {f g : α → Parser → Attempt Diagnostic Parser β} (h : Agree R V a b)
    (hfg : ∀ ⦃x y p q⦄, a = (.ok x, p) → V x y → R p q → Agree R W (f x p) (g y q)) :
    Agree R W (a.andThen f) (b.andThen g) := by
  cases h with
  | ok hv hr => exact hfg rfl hv hr
  | error hfault hr => exact .error hfault hr

theorem Agree.map {a b : Attempt Diagnostic Parser α} (f : α → β) (h : Agree R Eq a b) :
    Agree R Eq (a.andThen fun x p => (.ok (f x), p)) (b.andThen fun x p => (.ok (f x), p)) :=
  h.andThen fun _ _ _ _ _ hv hr => .ok (congrArg f hv) hr

theorem Agree.void {a b : Attempt Diagnostic Parser α} (h : Agree R V a b) :
    Agree R Eq a.void b.void :=
  h.andThen fun _ _ _ _ _ _ hr => .ok rfl hr

theorem Agree.related {a b : Attempt Diagnostic Parser α} (h : Agree R V a b) : R a.2 b.2 := by
  cases h with
  | ok _ hr => exact hr
  | error _ hr => exact hr

theorem Step.fewer_of_attempt {s : Step n α} {x : α} (h : s.attempt = (.ok x, q)) :
    q.remaining < n := by
  cases s with
  | done value parser fewer =>
    cases h
    exact fewer
  | failed => cases h

theorem expect_remaining {k : TokenKind} {t : Token} (h : p.expect k = (.ok t, q)) (hk : k ≠ .eof) :
    q.remaining < p.remaining := by
  rw [← attempt_need p hk] at h
  exact Step.fewer_of_attempt h

namespace Lockstep

section

variable (hR : Lockstep R)
include hR

/-! ## One token -/

theorem kind (h : R p q) : p.kind = q.kind := congrArg Terminal.kind (hR.current h)

theorem lexeme (h : R p q) : p.current.lexeme = q.current.lexeme :=
  congrArg Terminal.lexeme (hR.current h)

theorem unexpected (h : R p q) (message : String) :
    Agree R V (.error (p.unexpected message), p) (.error (q.unexpected message), q) := by
  refine .error ?_ h
  have hkind : p.current.kind = q.current.kind := hR.kind h
  simp only [Parser.unexpected, Token.label, hR.lexeme h, hkind]

theorem expect (h : R p q) (k : TokenKind) : Agree R SameText (p.expect k) (q.expect k) := by
  unfold Parser.expect expectOr mismatch
  rw [hR.kind h]
  split
  · exact hR.advance h
  · exact .error rfl h

/-! ## Types and expressions -/

theorem type (h : R p q) : Agree R Eq p.type.attempt q.type.attempt := by
  rw [attempt_type, attempt_type, hR.kind h]
  cases q.kind.numType? with
  | some type => exact (hR.advance h).andThen fun _ _ _ _ _ _ hr => .ok rfl hr
  | none => exact hR.unexpected h _

theorem name (h : R p q) : Agree R Eq p.name.attempt q.name.attempt := by
  rw [attempt_name, attempt_name]
  exact (hR.expect h .ident).andThen fun _ _ _ _ _ ht hr => .ok (congrArg Terminal.lexeme ht) hr

theorem chainTail {ops : List BinaryOp} {table : TokenKind → Option BinaryOp}
    {read : Parser → Attempt Diagnostic Parser Expr}
    {tail : Expr → Parser → Attempt Diagnostic Parser Expr}
    (hloop : IsChainLoop ops table read tail)
    (hfewer : ∀ ⦃p q e⦄, read p = (.ok e, q) → q.remaining < p.remaining)
    (hread : ∀ ⦃p q⦄, p.remaining ≤ n → R p q → Agree R Eq (read p) (read q)) (l : Expr)
    (hn : p.remaining ≤ n) (h : R p q) : Agree R Eq (tail l p) (tail l q) := by
  induction p using remaining_induction generalizing q l with
  | fewer p ih =>
  rw [hloop.tail_eq, hloop.tail_eq, hR.kind h]
  cases hk : table q.kind with
  | none => exact .ok rfl h
  | some op =>
    refine (hR.advance h).andThen fun _ _ p₁ q₁ ha _ h₁ => ?_
    have heof : p.kind ≠ .eof := by
      rw [hR.kind h, (hloop.table_eq_some.mp hk).2]
      cases op <;> nofun
    have hlt := advance_remaining ha heof
    refine (hread (by omega) h₁).andThen fun r _ p₂ q₂ hr heq h₂ => ?_
    subst heq
    have hlt' := hfewer hr
    exact ih p₂ (by omega) _ (by omega) h₂

theorem term_of
    (hfactor : ∀ ⦃p q⦄, p.remaining ≤ n → R p q → Agree R Eq p.factor.attempt q.factor.attempt)
    (hn : p.remaining ≤ n) (h : R p q) : Agree R Eq p.term.attempt q.term.attempt := by
  rw [attempt_term, attempt_term]
  refine (hfactor hn h).andThen fun l _ p₁ q₁ hl heq h₁ => ?_
  subst heq
  have hlt := Step.fewer_of_attempt hl
  exact hR.chainTail termLoop (fun _ _ _ => Step.fewer_of_attempt) hfactor l (by omega) h₁

theorem expr_of
    (hfactor : ∀ ⦃p q⦄, p.remaining ≤ n → R p q → Agree R Eq p.factor.attempt q.factor.attempt)
    (hn : p.remaining ≤ n) (h : R p q) : Agree R Eq p.expr.attempt q.expr.attempt := by
  rw [attempt_expr, attempt_expr]
  refine (hR.term_of hfactor hn h).andThen fun l _ p₁ q₁ hl heq h₁ => ?_
  subst heq
  have hlt := Step.fewer_of_attempt hl
  exact hR.chainTail exprLoop (fun _ _ _ => Step.fewer_of_attempt)
    (fun _ _ hle => hR.term_of hfactor hle) l (by omega) h₁

theorem grouping_of
    (hexpr : ∀ ⦃p' q⦄, p'.remaining < p.remaining → R p' q →
      Agree R Eq p'.expr.attempt q.expr.attempt)
    (h : R p q) : Agree R Eq p.grouping.attempt q.grouping.attempt := by
  rw [attempt_grouping, attempt_grouping]
  refine (hR.expect h .lparen).andThen fun _ _ p₁ q₁ ha _ h₁ => ?_
  refine (hexpr (expect_remaining ha nofun) h₁).andThen fun e _ p₂ q₂ _ heq h₂ => ?_
  exact (hR.expect h₂ .rparen).andThen fun _ _ _ _ _ _ h₃ => .ok heq h₃

/-- **Factors.** -/
theorem factor (h : R p q) : Agree R Eq p.factor.attempt q.factor.attempt := by
  induction p using remaining_induction generalizing q with
  | fewer p ih =>
  rw [attempt_factor, attempt_factor, hR.kind h]
  cases hs : q.kind.sign? with
  | some op =>
    refine (hR.advance h).andThen fun _ _ p₁ q₁ ha _ h₁ => ?_
    have heof : p.kind ≠ .eof := hR.kind h ▸ TokenKind.ne_eof hs rfl
    exact (ih p₁ (advance_remaining ha heof) h₁).map (Expr.unary op)
  | none =>
  cases q.kind.literal? with
  | some type =>
    refine (hR.advance h).andThen fun t u _ _ _ ht h₁ => .ok ?_ h₁
    exact congrArg (Expr.literal type) (congrArg Terminal.lexeme ht)
  | none =>
  by_cases hk : q.kind = .lparen
  · simp only [if_pos hk]
    refine hR.grouping_of (fun p' q' hlt h' => ?_) h
    exact hR.expr_of (fun p₂ q₂ hle => ih p₂ (by omega)) (Nat.le_refl _) h'
  · simp only [if_neg hk]
    exact (hR.name h).map Expr.var

theorem term (h : R p q) : Agree R Eq p.term.attempt q.term.attempt :=
  hR.term_of (fun _ _ _ => hR.factor) (Nat.le_refl _) h

theorem expr (h : R p q) : Agree R Eq p.expr.attempt q.expr.attempt :=
  hR.expr_of (fun _ _ _ => hR.factor) (Nat.le_refl _) h

theorem grouping (h : R p q) : Agree R Eq p.grouping.attempt q.grouping.attempt :=
  hR.grouping_of (fun _ _ _ => hR.expr) h

/-! ## Statements -/

theorem declare (h : R p q) : Agree R Eq p.declare.attempt q.declare.attempt := by
  rw [attempt_declare, attempt_declare]
  refine (hR.type h).andThen fun type _ p₁ q₁ _ htype h₁ => ?_
  refine (hR.name h₁).andThen fun x _ p₂ q₂ _ hname h₂ => ?_
  refine (hR.expect h₂ .semi).andThen fun _ _ _ _ _ _ h₃ => .ok ?_ h₃
  rw [htype, hname]

theorem assign (h : R p q) : Agree R Eq p.assign.attempt q.assign.attempt := by
  rw [attempt_assign, attempt_assign]
  refine (hR.name h).andThen fun x _ p₁ q₁ _ hname h₁ => ?_
  refine (hR.expect h₁ .assign).andThen fun _ _ p₂ q₂ _ _ h₂ => ?_
  refine (hR.expr h₂).andThen fun e _ p₃ q₃ _ hexpr h₃ => ?_
  refine (hR.expect h₃ .semi).andThen fun _ _ _ _ _ _ h₄ => .ok ?_ h₄
  rw [hname, hexpr]

theorem statementsTail_of
    (hstmt : ∀ ⦃p q⦄, p.remaining ≤ n → R p q →
      Agree R Eq p.properStmt.attempt q.properStmt.attempt)
    (hn : p.remaining ≤ n) (h : R p q) :
    Agree R Eq p.statementsTail.attempt q.statementsTail.attempt := by
  induction p using remaining_induction generalizing q with
  | fewer p ih =>
  rw [attempt_statementsTail, attempt_statementsTail, hR.kind h]
  by_cases hk : q.kind = .rbrace
  · rw [if_pos hk, if_pos hk]
    exact .ok rfl h
  · rw [if_neg hk, if_neg hk]
    refine (hstmt hn h).andThen fun s _ p₁ q₁ hs heq h₁ => ?_
    subst heq
    have hlt := Step.fewer_of_attempt hs
    exact (ih p₁ hlt (by omega) h₁).map (s :: ·)

theorem statements_of
    (hstmt : ∀ ⦃p q⦄, p.remaining ≤ n → R p q →
      Agree R Eq p.properStmt.attempt q.properStmt.attempt)
    (hn : p.remaining ≤ n) (h : R p q) :
    Agree R Eq p.statements.attempt q.statements.attempt := by
  rw [attempt_statements, attempt_statements, hR.kind h]
  split
  · exact .ok rfl h
  · exact hR.statementsTail_of hstmt hn h

theorem block_of
    (hstmt : ∀ ⦃p' q⦄, p'.remaining < p.remaining → R p' q →
      Agree R Eq p'.properStmt.attempt q.properStmt.attempt)
    (h : R p q) : Agree R Eq p.block.attempt q.block.attempt := by
  rw [attempt_block, attempt_block]
  refine (hR.expect h .lbrace).andThen fun _ _ p₁ q₁ ha _ h₁ => ?_
  have hlt := expect_remaining ha nofun
  have hbody := hR.statements_of (fun p' q' hle => @hstmt p' q' (by omega))
    (Nat.le_refl p₁.remaining) h₁
  refine hbody.andThen fun ss _ p₂ q₂ _ heq h₂ => ?_
  exact (hR.expect h₂ .rbrace).andThen fun _ _ _ _ _ _ h₃ => .ok heq h₃

/-- **Statements.** -/
theorem properStmt (h : R p q) : Agree R Eq p.properStmt.attempt q.properStmt.attempt := by
  induction p using remaining_induction generalizing q with
  | fewer p ih =>
  rw [attempt_properStmt, attempt_properStmt, hR.kind h]
  split
  · exact (hR.block_of (fun p' q' hlt => ih p' hlt) h).map Stmt.block
  · exact hR.assign h
  · exact hR.declare h
  · exact hR.declare h
  · exact hR.unexpected h _

theorem block (h : R p q) : Agree R Eq p.block.attempt q.block.attempt :=
  hR.block_of (fun _ _ _ => hR.properStmt) h

theorem statements (h : R p q) : Agree R Eq p.statements.attempt q.statements.attempt :=
  hR.statements_of (fun _ _ _ => hR.properStmt) (Nat.le_refl _) h

theorem stmt (h : R p q) : Agree R Eq p.stmt.attempt q.stmt.attempt := by
  rw [attempt_stmt, attempt_stmt, hR.kind h]
  split
  · exact .ok rfl h
  · exact hR.properStmt h

/-! ## Programs -/

theorem param (h : R p q) : Agree R Eq p.param.attempt q.param.attempt := by
  rw [attempt_param, attempt_param]
  refine (hR.type h).andThen fun type _ p₁ q₁ _ htype h₁ => ?_
  refine (hR.name h₁).andThen fun x _ _ _ _ hname h₂ => .ok ?_ h₂
  rw [htype, hname]

theorem paramsTail (h : R p q) : Agree R Eq p.paramsTail.attempt q.paramsTail.attempt := by
  induction p using remaining_induction generalizing q with
  | fewer p ih =>
  rw [attempt_paramsTail, attempt_paramsTail, hR.kind h]
  by_cases hk : q.kind = .comma
  · rw [if_pos hk, if_pos hk]
    refine (hR.expect h .comma).andThen fun _ _ p₁ q₁ ha _ h₁ => ?_
    have hlt := expect_remaining ha nofun
    refine (hR.param h₁).andThen fun first _ p₂ q₂ hp heq h₂ => ?_
    subst heq
    have hlt' := Step.fewer_of_attempt hp
    exact (ih p₂ (by omega) h₂).map (first :: ·)
  · rw [if_neg hk, if_neg hk]
    exact .ok rfl h

theorem params (h : R p q) : Agree R Eq p.params.attempt q.params.attempt := by
  rw [attempt_params, attempt_params]
  refine (hR.param h).andThen fun first _ p₁ q₁ _ heq h₁ => ?_
  subst heq
  exact (hR.paramsTail h₁).map (first :: ·)

/-- **Programs**, without the end of the text. -/
theorem program (h : R p q) : Agree R Eq p.program.attempt q.program.attempt := by
  rw [attempt_program, attempt_program, hR.kind h, hR.lexeme h]
  split
  · refine (hR.expect h .ident).andThen fun _ _ p₁ q₁ _ _ h₁ => ?_
    refine (hR.name h₁).andThen fun x _ p₂ q₂ _ hname h₂ => ?_
    refine (hR.expect h₂ .lparen).andThen fun _ _ p₃ q₃ _ _ h₃ => ?_
    refine (hR.params h₃).andThen fun params _ p₄ q₄ _ hparams h₄ => ?_
    refine (hR.expect h₄ .rparen).andThen fun _ _ p₅ q₅ _ _ h₅ => ?_
    subst hname hparams
    exact (hR.block h₅).map (Program.mk x params)
  · exact hR.unexpected h _

end

end Lockstep

/-! ## Calls of productions -/

/-- The productions that can be called on a parser. -/
inductive Production where
  | program
  | params
  | param
  | block
  | statements
  | stmt
  | declare
  | assign
  | expr
  | term
  | factor
  | grouping
  | name
  | type

/-- Calls a production; its tree is not kept. -/
def Production.call (p : Parser) : Production → Attempt Diagnostic Parser Unit
  | program => p.program.attempt.void
  | params => p.params.attempt.void
  | param => p.param.attempt.void
  | block => p.block.attempt.void
  | statements => p.statements.attempt.void
  | stmt => p.stmt.attempt.void
  | declare => p.declare.attempt.void
  | assign => p.assign.attempt.void
  | expr => p.expr.attempt.void
  | term => p.term.attempt.void
  | factor => p.factor.attempt.void
  | grouping => p.grouping.attempt.void
  | name => p.name.attempt.void
  | type => p.type.attempt.void

/-- **Every production goes in lockstep.** -/
theorem Lockstep.production (hR : Lockstep R) (f : Production) (h : R p q) :
    Agree R Eq (f.call p) (f.call q) := by
  cases f with
  | program => exact (hR.program h).void
  | params => exact (hR.params h).void
  | param => exact (hR.param h).void
  | block => exact (hR.block h).void
  | statements => exact (hR.statements h).void
  | stmt => exact (hR.stmt h).void
  | declare => exact (hR.declare h).void
  | assign => exact (hR.assign h).void
  | expr => exact (hR.expr h).void
  | term => exact (hR.term h).void
  | factor => exact (hR.factor h).void
  | grouping => exact (hR.grouping h).void
  | name => exact (hR.name h).void
  | type => exact (hR.type h).void

/-- Advancing keeps the property, whether it fails or not. -/
def Kept (P : Parser → Prop) : Prop := ∀ p, P p → P p.advance.2

/-- A parser goes in lockstep with itself. -/
theorem Kept.lockstep {P : Parser → Prop} (hP : Kept P) : Lockstep fun p q => p = q ∧ P p where
  current := by
    rintro p _ ⟨rfl, -⟩
    rfl
  advance := by
    rintro p _ ⟨rfl, h⟩
    have hnext := hP p h
    generalize p.advance = a at hnext
    obtain ⟨_ | _, p'⟩ := a
    · exact .error rfl ⟨rfl, hnext⟩
    · exact .ok rfl ⟨rfl, hnext⟩

/-- **What advancing keeps, every production keeps.** -/
theorem Kept.production {P : Parser → Prop} (hP : Kept P) (f : Production) (h : P p) :
    P (f.call p).2 :=
  (hP.lockstep.production f ⟨rfl, h⟩).related.2

end Abacus.Parser
