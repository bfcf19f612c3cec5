import Abacus.Proofs.Reading.Outcome

/-!
# Every production reads its nonterminal

One theorem per production: `reads_factor`, `reads_expr`, `reads_properStmt`, `reads_block`,
`reads_params` and `reads_program`. Chains and statements are loops and recursions, and go by
induction on what remains to be read; each is first proved from its parts up to some bound
(`..._of`), and the bound is removed by the recursion that closes it.

A production takes its tokens one by one, so its language is written as a sequence of tokens and
smaller languages (`group`, `declaration`, `assignment`, `signature`) and compared with the rules of
the grammar.
-/

namespace Abacus

/-! ## Tables of token kinds -/

theorem TokenKind.numType?_eq_some {k : TokenKind} {type : NumType} :
    k.numType? = some type ↔ k = type.keyword := by
  cases k <;> cases type <;> simp [numType?, NumType.keyword]

theorem TokenKind.sign?_eq_some {k : TokenKind} {op : UnaryOp} :
    k.sign? = some op ↔ k = op.kind := by
  cases k <;> cases op <;> simp [sign?, UnaryOp.kind]

theorem TokenKind.literal?_eq_some {k : TokenKind} {type : NumType} :
    k.literal? = some type ↔ k = type.numeral := by
  cases k <;> cases type <;> simp [literal?, NumType.numeral]

theorem TokenKind.additive?_eq_some {k : TokenKind} {op : BinaryOp} :
    k.additive? = some op ↔ op ∈ [BinaryOp.add, BinaryOp.sub] ∧ k = op.kind := by
  cases k <;> cases op <;> simp [additive?, BinaryOp.kind]

theorem TokenKind.multiplicative?_eq_some {k : TokenKind} {op : BinaryOp} :
    k.multiplicative? = some op ↔ op ∈ [BinaryOp.mul, BinaryOp.div] ∧ k = op.kind := by
  cases k <;> cases op <;> simp [multiplicative?, BinaryOp.kind]

namespace Parser

open Grammar

variable {α β : Type} {F G : TokenKind → Prop} {p : Parser} {n : Nat}

/-- The current token narrows down a language whose words are not empty. -/
theorem Reads.narrow {X Y : Lang α} {a : Attempt Diagnostic Parser α} (h : Reads X F p a)
    (hXY : ∀ ⦃u x⦄, X u x → Y u x) (hne : ∀ ⦃y⦄, ¬ Y [] y)
    (hYX : ∀ ⦃u y⦄, Y (p.current.terminal :: u) y → ∃ x, X (p.current.terminal :: u) x) :
    Reads Y F p a := by
  refine h.imp hXY ?_ fun _ hF => hF
  intro u y r v hy hr hv
  cases u with
  | nil => exact absurd hy (@hne y)
  | cons t u =>
    obtain ⟨rfl, -⟩ := List.cons_eq_cons.mp hv
    exact ⟨hYX hy, hr⟩

theorem follows_token {k : TokenKind} (hk : F k) {Z : α → String → Lang β} :
    Follows F G fun a => (Lang.token k).bind (Z a) := by
  rintro a _ b r ⟨_, v, s, rfl, -, rfl⟩ -
  exact opens_cons.mpr hk

/-! ## Types and names -/

/-- The keyword of a type. -/
def keyword : Lang NumType := fun w type => ∃ s, w = [⟨type.keyword, s⟩]

instance : keyword.Populated := ⟨[⟨.int, ""⟩], .int, "", rfl⟩

theorem keyword_forced ⦃w : List Terminal⦄ ⦃type : NumType⦄ (h : keyword w type) :
    Forced F keyword w type := by
  obtain ⟨s, rfl⟩ := h
  rintro _ type' r r' ⟨s', rfl⟩ heq _ _
  simp only [List.cons_append, List.cons.injEq, Terminal.mk.injEq] at heq
  obtain ⟨⟨hk, rfl⟩, -⟩ := heq
  obtain rfl := NumType.keyword_inj hk
  exact ⟨rfl, rfl⟩

theorem reads_type (p : Parser) : Reads keyword anyKind p p.type.attempt := by
  rw [attempt_type]
  cases h : p.kind.numType? with
  | some type =>
    have hk := TokenKind.numType?_eq_some.mp h
    refine (reads_current (TokenKind.ne_eof h rfl) fun q _ => reads_pure type q).narrow ?_ ?_ ?_
    · rintro _ _ ⟨_, ⟨rfl, rfl⟩, rfl⟩
      exact ⟨p.current.lexeme, by rw [← hk]; rfl⟩
    · rintro type' ⟨s, hs⟩
      cases hs
    · rintro u type' ⟨s, hs⟩
      obtain ⟨-, rfl⟩ := List.cons_eq_cons.mp hs
      exact ⟨type, [], ⟨rfl, rfl⟩, rfl⟩
  | none =>
    refine reads_unexpected _ begins_nil ?_
    rintro _ type r ⟨s, rfl⟩ - ⟨z, hz⟩
    obtain ⟨hs, -⟩ := List.cons_eq_cons.mp hz
    have hk : p.kind = type.keyword := congrArg Terminal.kind hs
    exact absurd (h.symm.trans (TokenKind.numType?_eq_some.mpr hk)) nofun

theorem reads_name (p : Parser) : Reads (Lang.token .ident) anyKind p p.name.attempt := by
  rw [attempt_name, ← Lang.bind_pure (Lang.token .ident)]
  exact reads_expect nofun fun q _ _ => reads_pure p.current.lexeme q

/-! ## Chains -/

/-- The operations of a chain after its first operand. -/
def chainTail (ops : List BinaryOp) (operand : Lang Expr) (l : Expr) : Lang Expr :=
  (Star (Operation ops operand)).map (applyAll l)

instance (ops : List BinaryOp) (operand : Lang Expr) (l : Expr) :
    (chainTail ops operand l).Populated :=
  ⟨[], l, [], Star.nil, rfl⟩

theorem chain_eq_bind (ops : List BinaryOp) (operand : Lang Expr) :
    Chain ops operand = operand.bind (chainTail ops operand) := by
  funext w e
  refine propext (chain_iff.trans ⟨?_, ?_⟩)
  · rintro ⟨u, v, l, steps, hl, hs, rfl, rfl⟩
    exact ⟨u, v, l, hl, ⟨steps, hs, rfl⟩, rfl⟩
  · rintro ⟨u, v, l, hl, ⟨steps, hs, rfl⟩, rfl⟩
    exact ⟨u, v, l, steps, hl, hs, rfl, rfl⟩

/-- `tail` goes on with a chain while the current token is an operator of `table`. -/
structure IsChainLoop (ops : List BinaryOp) (table : TokenKind → Option BinaryOp)
    (read : Parser → Attempt Diagnostic Parser Expr)
    (tail : Expr → Parser → Attempt Diagnostic Parser Expr) : Prop where
  table_eq_some : ∀ {k : TokenKind} {op : BinaryOp}, table k = some op ↔ op ∈ ops ∧ k = op.kind
  tail_eq : ∀ l p, tail l p = match table p.kind with
    | none => (.ok l, p)
    | some op => p.advance.andThen fun _ q => (read q).andThen fun r s => tail (.binary op l r) s

section Chain

variable {ops : List BinaryOp} {operand : Lang Expr} {table : TokenKind → Option BinaryOp}
  {read : Parser → Attempt Diagnostic Parser Expr}
  {tail : Expr → Parser → Attempt Diagnostic Parser Expr}

theorem follows_chainTail (hF : ∀ k, isOneOf ops k → F k) {f : α → Expr} :
    Follows F (fun k => F k ∧ ¬ isOneOf ops k) fun a => chainTail ops operand (f a) := by
  rintro a v e r ⟨steps, hs, rfl⟩ hr
  refine (hs.opens operation_opensWith hr).mono ?_
  rintro k (hk | hk)
  · exact hk.1
  · exact hF k hk

variable [operand.Populated]

/-- A loop over operators reads the operations of a chain. -/
theorem IsChainLoop.reads_tail (h : IsChainLoop ops table read tail)
    (hforced : ∀ ⦃w e⦄, operand w e → Forced F operand w e) (hF : ∀ k, isOneOf ops k → F k)
    (hread : ∀ q : Parser, q.remaining ≤ n → Reads operand F q (read q))
    (l : Expr) (hn : p.remaining ≤ n) (hp : F p.kind) :
    Reads (chainTail ops operand l) (fun k => F k ∧ ¬ isOneOf ops k) p (tail l p) := by
  -- the loop ends because each round advances past an operator
  induction p using remaining_induction generalizing l with
  | fewer p ih =>
  rw [h.tail_eq]
  cases ht : table p.kind with
  | none =>
    refine .done (.refl p) ⟨[], Star.nil, rfl⟩ ⟨hp, ?_⟩
    rintro ⟨op, hop, hk⟩
    exact absurd (ht.symm.trans (h.table_eq_some.mpr ⟨hop, hk⟩)) nofun
  | some op =>
    obtain ⟨hop, hk⟩ := h.table_eq_some.mp ht
    have heof : p.kind ≠ .eof := by rw [hk]; cases op <;> nofun
    refine (reads_current (Y := operand.bind fun r => chainTail ops operand (.binary op l r)) heof
      fun q ha => ?_).imp ?_ ?_ fun _ hG => hG
    · have hlt := advance_remaining ha heof
      refine (hread q (by omega)).andThen hforced (follows_chainTail hF) fun us r s _ hm' _ hs => ?_
      have := hm'.remaining_add
      exact ih s (by omega) _ (by omega) hs
    · rintro _ e ⟨_, ⟨u, v, r, hr, ⟨steps, hs, rfl⟩, rfl⟩, rfl⟩
      exact ⟨(op, r) :: steps, Star.cons (Operation.mk hop hk hr) hs, rfl⟩
    · rintro u e r z ⟨steps, hs, rfl⟩ hz heq
      refine ⟨?_, hz⟩
      cases hs with
      | nil =>
        rw [List.nil_append] at heq
        subst heq
        exact absurd ⟨op, hop, hk⟩ (opens_cons.mp hz).2
      | cons ho hs =>
        obtain ⟨hop', hk', he⟩ := ho
        simp only [List.cons_append, List.cons.injEq] at heq
        obtain ⟨rfl, -⟩ := heq
        exact ⟨_, _, ⟨_, _, _, he, ⟨_, hs, rfl⟩, rfl⟩, rfl⟩

/-- **An operand and then the loop read a chain.** -/
theorem IsChainLoop.reads (h : IsChainLoop ops table read tail)
    (hforced : ∀ ⦃w e⦄, operand w e → Forced F operand w e) (hF : ∀ k, isOneOf ops k → F k)
    (hread : ∀ q : Parser, q.remaining ≤ n → Reads operand F q (read q)) (hn : p.remaining ≤ n) :
    Reads (Chain ops operand) (fun k => F k ∧ ¬ isOneOf ops k) p ((read p).andThen tail) := by
  rw [chain_eq_bind]
  refine (hread p hn).andThen hforced (follows_chainTail hF) fun us l q _ hm _ hq => ?_
  have := hm.remaining_add
  exact h.reads_tail hforced hF hread l (by omega) hq

end Chain

/-! ## Expressions -/

instance : DerivesFactor.Populated := ⟨[⟨.ident, ""⟩], .var "", .var rfl⟩

instance (ops : List BinaryOp) (operand : Lang Expr) [operand.Populated] :
    (Chain ops operand).Populated := by
  rw [chain_eq_bind]
  infer_instance

theorem termLoop : IsChainLoop [.mul, .div] TokenKind.multiplicative? (fun p => p.factor.attempt)
    fun l p => (termTail l p).attempt :=
  ⟨TokenKind.multiplicative?_eq_some, attempt_termTail⟩

theorem exprLoop : IsChainLoop [.add, .sub] TokenKind.additive? (fun p => p.term.attempt)
    fun l p => (exprTail l p).attempt :=
  ⟨TokenKind.additive?_eq_some, attempt_exprTail⟩

theorem Reads.congr_follow {X : Lang α} {a : Attempt Diagnostic Parser α} (h : Reads X F p a)
    (hFG : ∀ k, F k ↔ G k) : Reads X G p a := by
  obtain rfl : F = G := funext fun k => propext (hFG k)
  exact h

theorem reads_term_of
    (hfactor : ∀ q : Parser, q.remaining ≤ n → Reads DerivesFactor anyKind q q.factor.attempt)
    (hn : p.remaining ≤ n) : Reads DerivesTerm endsTerm p p.term.attempt := by
  rw [attempt_term]
  refine (termLoop.reads (fun _ _ h => factor_forced h) (fun _ _ => trivial) hfactor
    hn).congr_follow fun k => ?_
  rw [isOneOf_mul_div, not_or]
  exact ⟨fun h => h.2, fun h => ⟨trivial, h⟩⟩

theorem reads_expr_of
    (hfactor : ∀ q : Parser, q.remaining ≤ n → Reads DerivesFactor anyKind q q.factor.attempt)
    (hn : p.remaining ≤ n) : Reads DerivesExpr endsExpr p p.expr.attempt := by
  rw [attempt_expr]
  refine (exprLoop.reads (fun _ _ h => term_forced h) ?_ (fun q hq => reads_term_of hfactor hq)
    hn).congr_follow fun k => ?_
  · intro k hk
    rcases isOneOf_add_sub.mp hk with rfl | rfl <;> exact ⟨nofun, nofun⟩
  · rw [isOneOf_add_sub, not_or]
    exact ⟨fun h => ⟨h.2.1, h.2.2, h.1⟩, fun h => ⟨h.2.2, h.1, h.2.1⟩⟩

/-- An expression in parentheses. -/
def group : Lang Expr :=
  (Lang.token .lparen).bind fun _ => DerivesExpr.bind fun e =>
    (Lang.token .rparen).bind fun _ => Lang.pure e

theorem reads_group_of
    (hexpr : ∀ q : Parser, q.remaining < p.remaining →
      Reads DerivesExpr endsExpr q q.expr.attempt) :
    Reads group anyKind p p.grouping.attempt := by
  rw [attempt_grouping]
  refine reads_expect nofun fun q hk ha => ?_
  have hlt := advance_remaining ha (by rw [hk]; nofun)
  refine (hexpr q hlt).andThen (fun _ _ h => expr_forced h) (follows_token rparen_endsExpr)
    fun us e r _ _ _ _ => ?_
  exact reads_expect nofun fun s _ _ => reads_pure e s

theorem factor_of_group {w : List Terminal} {e : Expr} (h : group w e) : DerivesFactor w e := by
  obtain ⟨_, _, _, rfl, ⟨u, _, _, hu, ⟨_, _, _, rfl, ⟨rfl, rfl⟩, rfl⟩, rfl⟩, rfl⟩ := h
  exact DerivesFactor.group rfl hu rfl

theorem group_of_factor {t : Terminal} {u : List Terminal} {e : Expr}
    (h : DerivesFactor (t :: u) e) (ht : t.kind = .lparen) : group (t :: u) e := by
  obtain ⟨v, r, he, hr, rfl⟩ := factor_of_lparen h ht
  rw [Terminal.eq_mk ht, Terminal.eq_mk hr]
  exact ⟨_, _, _, rfl, ⟨v, _, e, he, ⟨_, _, _, rfl, ⟨rfl, rfl⟩, rfl⟩, rfl⟩, rfl⟩

theorem not_factor_nil ⦃e : Expr⦄ : ¬ DerivesFactor [] e := fun h => factor_ne_nil h rfl

/-- **Factors.** -/
theorem reads_factor (p : Parser) : Reads DerivesFactor anyKind p p.factor.attempt := by
  induction p using remaining_induction with
  | fewer p ih =>
  rw [attempt_factor]
  cases hs : p.kind.sign? with
  | some op =>
    have hk := TokenKind.sign?_eq_some.mp hs
    have heof := TokenKind.ne_eof hs rfl
    refine (reads_current heof fun q ha =>
      (ih q (advance_remaining ha heof)).map (Expr.unary op)).narrow ?_ not_factor_nil ?_
    · rintro _ _ ⟨v, ⟨e, he, rfl⟩, rfl⟩
      exact DerivesFactor.sign hk he
    · intro u e h
      obtain ⟨e', he', rfl⟩ := factor_of_sign h hk
      exact ⟨_, u, ⟨e', he', rfl⟩, rfl⟩
  | none =>
  cases hl : p.kind.literal? with
  | some type =>
    have hk := TokenKind.literal?_eq_some.mp hl
    refine (reads_current (TokenKind.ne_eof hl rfl) fun q _ =>
      reads_pure (Expr.literal type p.current.lexeme) q).narrow ?_ not_factor_nil ?_
    · rintro _ _ ⟨_, ⟨rfl, rfl⟩, rfl⟩
      exact DerivesFactor.literal hk
    · intro u e h
      obtain ⟨rfl, rfl⟩ := factor_of_numeral h hk
      exact ⟨_, [], ⟨rfl, rfl⟩, rfl⟩
  | none =>
  by_cases hp : p.kind = .lparen
  · simp only [if_pos hp]
    have hexpr : ∀ q : Parser, q.remaining < p.remaining →
        Reads DerivesExpr endsExpr q q.expr.attempt := fun q hq =>
      reads_expr_of (fun q' hq' => ih q' (Nat.lt_of_le_of_lt hq' hq)) (Nat.le_refl q.remaining)
    refine (reads_group_of hexpr).narrow (fun _ _ h => factor_of_group h) not_factor_nil ?_
    exact fun u e h => ⟨e, group_of_factor h hp⟩
  · simp only [if_neg hp]
    refine ((reads_name p).map .var).narrow ?_ not_factor_nil ?_
    · rintro _ _ ⟨s, rfl, rfl⟩
      exact DerivesFactor.var rfl
    · intro u e h
      cases h with
      | sign ht _ => exact absurd (hs.symm.trans (TokenKind.sign?_eq_some.mpr ht)) nofun
      | literal ht => exact absurd (hl.symm.trans (TokenKind.literal?_eq_some.mpr ht)) nofun
      | group hl' _ _ => exact absurd hl' hp
      | var ht => exact ⟨_, p.current.lexeme, by rw [Lang.token, ← ht]; rfl, rfl⟩

theorem reads_expr (p : Parser) : Reads DerivesExpr endsExpr p p.expr.attempt :=
  reads_expr_of (fun q _ => reads_factor q) (Nat.le_refl p.remaining)

/-! ## Repetition -/

instance (X : Lang α) : Lang.Populated (Star X) := ⟨[], [], Star.nil⟩

/-- One word and then a repetition. -/
def plus (X : Lang α) : Lang (List α) := X.bind fun a => Lang.map (a :: ·) (Star X)

theorem star_of_plus {X : Lang α} ⦃w : List Terminal⦄ ⦃as : List α⦄ (h : plus X w as) :
    Star X w as := by
  obtain ⟨u, v, a, ha, ⟨as, has, rfl⟩, rfl⟩ := h
  exact Star.cons ha has

/-- A repetition before a kind that may not follow it has a first word. -/
theorem plus_of_star {X : Lang α} {t : Terminal} (ht : ¬ F t.kind) {u r v : List Terminal}
    {as : List α} (h : Star X u as) (hr : Opens F r) (heq : u ++ r = t :: v) : plus X u as := by
  cases h with
  | nil =>
    rw [List.nil_append] at heq
    subst heq
    exact absurd (opens_cons.mp hr) ht
  | cons ha has => exact ⟨_, _, _, ha, ⟨_, has, rfl⟩, rfl⟩

theorem reads_star_nil {X : Lang α} (hp : F p.kind) : Reads (Star X) F p (.ok [], p) :=
  .done (.refl p) Star.nil hp

theorem Reads.star {X : Lang α} {a : Attempt Diagnostic Parser (List α)}
    (h : Reads (plus X) F p a) (hp : ¬ F p.kind) : Reads (Star X) F p a :=
  h.imp star_of_plus (fun _ _ _ _ hs hr heq => ⟨⟨_, plus_of_star hp hs hr heq⟩, hr⟩) fun _ hF => hF

/-! ## Statements -/

/-- A declaration, word by word. -/
def declaration : Lang Stmt :=
  keyword.bind fun type => (Lang.token .ident).bind fun x =>
    (Lang.token .semi).bind fun _ => Lang.pure (.declare type x)

/-- An assignment, word by word. -/
def assignment : Lang Stmt :=
  (Lang.token .ident).bind fun x => (Lang.token .assign).bind fun _ =>
    DerivesExpr.bind fun e => (Lang.token .semi).bind fun _ => Lang.pure (.assign x e)

theorem reads_declare (p : Parser) : Reads declaration anyKind p p.declare.attempt := by
  rw [attempt_declare]
  refine (reads_type p).andThen keyword_forced follows_anyKind fun us type q _ _ _ _ => ?_
  refine (reads_name q).andThen token_forced follows_anyKind fun us x r _ _ _ _ => ?_
  exact reads_expect nofun fun s _ _ => reads_pure (Stmt.declare type x) s

theorem reads_assign (p : Parser) : Reads assignment anyKind p p.assign.attempt := by
  rw [attempt_assign]
  refine (reads_name p).andThen token_forced follows_anyKind fun us x q _ _ _ _ => ?_
  refine reads_expect nofun fun r _ _ => ?_
  refine (reads_expr r).andThen (fun _ _ h => expr_forced h) (follows_token semi_endsExpr)
    fun us e s _ _ _ _ => ?_
  exact reads_expect nofun fun u _ _ => reads_pure (Stmt.assign x e) u

theorem stmt_of_declaration ⦃w : List Terminal⦄ ⦃s : Stmt⦄ (h : declaration w s) :
    DerivesStmt w s := by
  obtain ⟨_, _, _, ⟨_, rfl⟩, ⟨_, _, _, rfl, ⟨_, _, _, rfl, ⟨rfl, rfl⟩, rfl⟩, rfl⟩, rfl⟩ := h
  exact DerivesStmt.declare rfl rfl rfl

theorem stmt_of_assignment ⦃w : List Terminal⦄ ⦃s : Stmt⦄ (h : assignment w s) :
    DerivesStmt w s := by
  obtain ⟨_, _, _, rfl, ⟨_, _, _, rfl, ⟨_, _, _, he, ⟨_, _, _, rfl, ⟨rfl, rfl⟩, rfl⟩, rfl⟩, rfl⟩,
    rfl⟩ := h
  exact DerivesStmt.assign rfl rfl he rfl

theorem declaration_of_stmt {t : Terminal} {u : List Terminal} {s : Stmt} (type : NumType)
    (h : DerivesStmt (t :: u) s) (ht : t.kind = type.keyword) : declaration (t :: u) s := by
  obtain ⟨x, semi, hx, hsemi, rfl, rfl⟩ := stmt_of_keyword h ht
  rw [Terminal.eq_mk ht, Terminal.eq_mk hx, Terminal.eq_mk hsemi]
  exact ⟨_, _, type, ⟨_, rfl⟩, ⟨_, _, _, rfl, ⟨_, _, _, rfl, ⟨rfl, rfl⟩, rfl⟩, rfl⟩, rfl⟩

theorem assignment_of_stmt {t : Terminal} {u : List Terminal} {s : Stmt}
    (h : DerivesStmt (t :: u) s) (ht : t.kind = .ident) : assignment (t :: u) s := by
  obtain ⟨eq, v, semi, e, heq, he, hsemi, rfl, rfl⟩ := stmt_of_ident h ht
  rw [Terminal.eq_mk ht, Terminal.eq_mk heq, Terminal.eq_mk hsemi]
  exact ⟨_, _, _, rfl, ⟨_, _, _, rfl, ⟨v, _, e, he, ⟨_, _, _, rfl, ⟨rfl, rfl⟩, rfl⟩, rfl⟩, rfl⟩,
    rfl⟩

theorem not_stmt_nil ⦃s : Stmt⦄ : ¬ DerivesStmt [] s := by
  intro h
  obtain ⟨t, u, hu, -⟩ := stmt_opensWith h
  cases hu

instance : DerivesStmt.Populated :=
  ⟨[⟨.int, ""⟩, ⟨.ident, ""⟩, ⟨.semi, ""⟩], .declare .int "", .declare rfl rfl rfl⟩

/-- The statements between braces. -/
def body : Lang (List Stmt) := Lang.map orEmpty (Star DerivesStmt)

instance : body.Populated := ⟨[], [.empty], [], Star.nil, rfl⟩

theorem compound_eq_bind : DerivesCompound =
    (Lang.token .lbrace).bind fun _ => body.bind fun ss =>
      (Lang.token .rbrace).bind fun _ => Lang.pure ss := by
  funext w ss
  refine propext (compound_iff.trans ⟨?_, ?_⟩)
  · rintro ⟨l, u, r, ss, hl, hss, hr, rfl, rfl⟩
    rw [Terminal.eq_mk hl, Terminal.eq_mk hr]
    exact ⟨_, _, _, rfl, ⟨u, _, _, ⟨ss, hss, rfl⟩, ⟨_, _, _, rfl, ⟨rfl, rfl⟩, rfl⟩, rfl⟩, rfl⟩
  · rintro ⟨_, _, _, rfl, ⟨u, _, _, ⟨ss, hss, rfl⟩, ⟨_, _, _, rfl, ⟨rfl, rfl⟩, rfl⟩, rfl⟩, rfl⟩
    exact ⟨_, u, _, ss, rfl, hss, rfl, rfl, rfl⟩

instance : DerivesCompound.Populated := by
  rw [compound_eq_bind]
  infer_instance

theorem stmts_forced ⦃w : List Terminal⦄ ⦃ss : List Stmt⦄ (h : Star DerivesStmt w ss) :
    Forced (· = .rbrace) (Star DerivesStmt) w ss :=
  h.forced stmt_opensWith not_opensStmt_rbrace
    (fun _ _ hu _ => (stmt_forced hu).mono fun _ _ => trivial) (Nat.le_refl _)

theorem body_forced ⦃w : List Terminal⦄ ⦃ss : List Stmt⦄ (h : body w ss) :
    Forced (· = .rbrace) body w ss := by
  obtain ⟨ss, hss, rfl⟩ := h
  rintro w' _ r r' ⟨ss', hss', rfl⟩ heq hr hr'
  obtain ⟨rfl, rfl⟩ := stmts_forced hss hss' heq hr hr'
  exact ⟨rfl, rfl⟩

/-- A statement and the statements after it. -/
theorem reads_plusStmts_of
    (hstmt : ∀ q : Parser, q.remaining ≤ n → Reads DerivesStmt anyKind q q.properStmt.attempt)
    (hn : p.remaining ≤ n) (hp : p.kind ≠ .rbrace) :
    Reads (plus DerivesStmt) (· = .rbrace) p p.statementsTail.attempt := by
  induction p using remaining_induction with
  | fewer p ih =>
  rw [attempt_statementsTail, if_neg hp]
  refine (hstmt p hn).andThen (fun _ _ h => stmt_forced h) follows_anyKind
    fun us s q _ hm hs _ => Reads.map (s :: ·) ?_
  -- a statement is never empty, so less remains after it
  have hlt : q.remaining < p.remaining := by
    obtain ⟨t, u, hu, -⟩ := stmt_opensWith hs
    have hlen : us.length = u.length + 1 := by simpa using congrArg List.length hu
    have := hm.remaining_add
    omega
  by_cases hq : q.kind = .rbrace
  · rw [attempt_statementsTail, if_pos hq]
    exact reads_star_nil hq
  · exact (ih q hlt (by omega) hq).star hq

theorem reads_body_of
    (hstmt : ∀ q : Parser, q.remaining ≤ n → Reads DerivesStmt anyKind q q.properStmt.attempt)
    (hn : p.remaining ≤ n) : Reads body (· = .rbrace) p p.statements.attempt := by
  rw [attempt_statements]
  by_cases hp : p.kind = .rbrace
  · rw [if_pos hp]
    exact .done (.refl p) ⟨[], Star.nil, rfl⟩ hp
  · rw [if_neg hp]
    refine (reads_plusStmts_of hstmt hn hp).imp ?_ ?_ fun _ hF => hF
    · rintro _ _ ⟨u, v, s, hs, ⟨ss, hss, rfl⟩, rfl⟩
      exact ⟨s :: ss, Star.cons hs hss, rfl⟩
    · rintro u _ r v ⟨ss, hss, rfl⟩ hr heq
      exact ⟨⟨ss, plus_of_star hp hss hr heq⟩, hr⟩

theorem reads_block_of
    (hstmt : ∀ q : Parser, q.remaining < p.remaining →
      Reads DerivesStmt anyKind q q.properStmt.attempt) :
    Reads DerivesCompound anyKind p p.block.attempt := by
  rw [attempt_block, compound_eq_bind]
  refine reads_expect nofun fun q hk ha => ?_
  have hlt := advance_remaining ha (by rw [hk]; nofun)
  have hbody := reads_body_of (fun q' hq' => hstmt q' (Nat.lt_of_le_of_lt hq' hlt))
    (Nat.le_refl q.remaining)
  refine hbody.andThen body_forced (follows_token (by rfl)) fun us ss r _ _ _ _ => ?_
  exact reads_expect nofun fun s _ _ => reads_pure ss s

/-- **Statements.** -/
theorem reads_properStmt (p : Parser) : Reads DerivesStmt anyKind p p.properStmt.attempt := by
  induction p using remaining_induction with
  | fewer p ih =>
  rw [attempt_properStmt]
  split
  case h_1 hk =>
    refine ((reads_block_of ih).map Stmt.block).narrow ?_ not_stmt_nil ?_
    · rintro _ _ ⟨ss, hss, rfl⟩
      exact DerivesStmt.block hss
    · intro u s h
      obtain ⟨ss, hss, rfl⟩ := stmt_of_lbrace h hk
      exact ⟨_, ss, hss, rfl⟩
  case h_2 hk =>
    exact (reads_assign p).narrow stmt_of_assignment not_stmt_nil fun u s h =>
      ⟨s, assignment_of_stmt h hk⟩
  case h_3 hk =>
    exact (reads_declare p).narrow stmt_of_declaration not_stmt_nil fun u s h =>
      ⟨s, declaration_of_stmt .int h hk⟩
  case h_4 hk =>
    exact (reads_declare p).narrow stmt_of_declaration not_stmt_nil fun u s h =>
      ⟨s, declaration_of_stmt .float h hk⟩
  case h_5 hlbrace hident hint hfloat =>
    refine reads_unexpected _ begins_nil ?_
    rintro w s r hw - ⟨z, hz⟩
    obtain ⟨t, u, rfl, ht⟩ := stmt_opensWith hw
    obtain ⟨rfl, -⟩ := List.cons_eq_cons.mp hz
    rcases ht with ht | ht | ht | ht
    · exact hlbrace ht
    · exact hident ht
    · exact hint ht
    · exact hfloat ht

theorem reads_block (p : Parser) : Reads DerivesCompound anyKind p p.block.attempt :=
  reads_block_of fun q _ => reads_properStmt q

/-! ## Programs -/

theorem param_eq_bind : DerivesParam =
    keyword.bind fun type => Lang.map (fun x => ⟨type, x⟩) (Lang.token .ident) := by
  funext w p
  refine propext ⟨?_, ?_⟩
  · rintro ⟨hk, hx⟩
    rw [Terminal.eq_mk hk, Terminal.eq_mk hx]
    exact ⟨_, _, _, ⟨_, rfl⟩, ⟨_, rfl, rfl⟩, rfl⟩
  · rintro ⟨_, _, type, ⟨_, rfl⟩, ⟨x, rfl, rfl⟩, rfl⟩
    exact DerivesParam.mk rfl rfl

instance : DerivesParam.Populated := by
  rw [param_eq_bind]
  infer_instance

theorem reads_param (p : Parser) : Reads DerivesParam anyKind p p.param.attempt := by
  rw [attempt_param, param_eq_bind]
  exact (reads_type p).andThen keyword_forced follows_anyKind fun us type q _ _ _ _ =>
    (reads_name q).map _

theorem nextParam_eq_bind : DerivesNextParam = (Lang.token .comma).bind fun _ => DerivesParam := by
  funext w p
  refine propext ⟨?_, ?_⟩
  · rintro ⟨hc, hp⟩
    rw [Terminal.eq_mk hc]
    exact ⟨_, _, _, rfl, hp, rfl⟩
  · rintro ⟨_, _, _, rfl, hp, rfl⟩
    exact DerivesNextParam.mk rfl hp

theorem reads_paramsTail (p : Parser) :
    Reads (Star DerivesNextParam) (· ≠ .comma) p p.paramsTail.attempt := by
  induction p using remaining_induction with
  | fewer p ih =>
  rw [attempt_paramsTail]
  by_cases hp : p.kind = .comma
  · rw [if_pos hp]
    refine Reads.star ?_ (not_not_intro hp)
    rw [plus, nextParam_eq_bind, Lang.bind_assoc]
    refine reads_expect nofun fun q hk ha => ?_
    have hlt := advance_remaining ha (by rw [hk]; nofun)
    refine (reads_param q).andThen (fun _ _ h => param_forced h) follows_anyKind
      fun us first r _ hm _ _ => Reads.map (first :: ·) ?_
    have := hm.remaining_add
    exact nextParam_eq_bind ▸ ih r (by omega)
  · rw [if_neg hp]
    exact reads_star_nil hp

theorem params_eq_plus : DerivesParams =
    DerivesParam.bind fun p => Lang.map (p :: ·) (Star DerivesNextParam) := by
  funext w ps
  refine propext ⟨?_, ?_⟩
  · rintro ⟨hp, hps⟩
    exact ⟨_, _, _, hp, ⟨_, hps, rfl⟩, rfl⟩
  · rintro ⟨_, _, _, hp, ⟨_, hps, rfl⟩, rfl⟩
    exact DerivesParams.mk hp hps

instance : DerivesParams.Populated := by
  rw [params_eq_plus]
  infer_instance

theorem reads_params (p : Parser) : Reads DerivesParams (· ≠ .comma) p p.params.attempt := by
  rw [attempt_params, params_eq_plus]
  exact (reads_param p).andThen (fun _ _ h => param_forced h) follows_anyKind
    fun us first q _ _ _ _ => (reads_paramsTail q).map _

/-- What comes after the word `function`. -/
def signature : Lang Program :=
  (Lang.token .ident).bind fun x => (Lang.token .lparen).bind fun _ =>
    DerivesParams.bind fun ps => (Lang.token .rparen).bind fun _ =>
      Lang.map (fun ss => ⟨x, ps, ss⟩) DerivesCompound

instance : signature.Populated := inferInstanceAs (Lang.Populated (Lang.bind _ _))

theorem function_iff {t : Terminal} {w : List Terminal} {p : Program} :
    DerivesFunction (t :: w) p ↔ t = ⟨.ident, "function"⟩ ∧ signature w p := by
  constructor
  · rintro ⟨hfn, hword, hx, hl, hps, hr, hss⟩
    rw [Terminal.eq_mk hfn, hword, Terminal.eq_mk hx, Terminal.eq_mk hl, Terminal.eq_mk hr]
    exact ⟨rfl, _, _, _, rfl, ⟨_, _, _, rfl, ⟨_, _, _, hps, ⟨_, _, _, rfl, ⟨_, hss, rfl⟩, rfl⟩,
      rfl⟩, rfl⟩, rfl⟩
  · rintro ⟨rfl, _, _, _, rfl, ⟨_, _, _, rfl, ⟨_, _, _, hps, ⟨_, _, _, rfl, ⟨_, hss, rfl⟩, rfl⟩,
      rfl⟩, rfl⟩, rfl⟩
    exact DerivesFunction.mk rfl rfl rfl rfl hps rfl hss

instance : DerivesFunction.Populated := by
  obtain ⟨w, p, h⟩ := (inferInstance : signature.Populated).word
  exact ⟨_, p, function_iff.mpr ⟨rfl, h⟩⟩

theorem not_function_nil ⦃p : Program⦄ : ¬ DerivesFunction [] p := by
  intro h
  cases h

/-- **Programs**, without the end of the text. -/
theorem reads_program (p : Parser) : Reads DerivesFunction anyKind p p.program.attempt := by
  rw [attempt_program]
  by_cases h : p.kind = .ident ∧ p.current.lexeme = functionKeyword
  · obtain ⟨hk, hword⟩ := h
    have ht : p.current.terminal = ⟨.ident, "function"⟩ := by
      rw [Token.terminal, ← hk, hword]
      rfl
    rw [if_pos ⟨hk, hword⟩, expect, expectOr, if_pos hk]
    refine (reads_current (Y := signature) (by rw [hk]; nofun) fun q _ => ?_).narrow ?_
      not_function_nil ?_
    · refine (reads_name q).andThen token_forced follows_anyKind fun us x r _ _ _ _ => ?_
      refine reads_expect nofun fun s _ _ => ?_
      refine (reads_params s).andThen (fun _ _ h => params_forced h) (follows_token nofun)
        fun us ps u _ _ _ _ => ?_
      exact reads_expect nofun fun v _ _ => (reads_block v).map _
    · rintro _ program ⟨v, hv, rfl⟩
      exact function_iff.mpr ⟨ht, hv⟩
    · intro u program hu
      exact ⟨program, u, (function_iff.mp hu).2, rfl⟩
  · rw [if_neg h]
    refine reads_unexpected _ begins_nil ?_
    rintro w program r hw - ⟨z, hz⟩
    cases w with
    | nil => exact not_function_nil hw
    | cons t w =>
      obtain ⟨rfl, -⟩ := List.cons_eq_cons.mp hz
      obtain ⟨ht, -⟩ := function_iff.mp hw
      exact h ⟨congrArg Terminal.kind ht, congrArg Terminal.lexeme ht⟩

end Parser

end Abacus
