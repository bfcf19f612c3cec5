import Abacus.Proofs.Grammar.Basic

/-!
# The grammar is unambiguous

Two words of one nonterminal that start the same text are the same word with the same tree, as soon
as what follows each of them cannot go on with it. `Forced F X w a` says this of the word `w` of `X`
with tree `a`; `F` holds the kinds that may follow. The follow sets are `anyKind` for what ends by
itself, `endsTerm` and `endsExpr` for the two chains, `(· ≠ .comma)` for parameters and
`(· = .rbrace)` for statements.

* `Star.forced` — repetition, if its words open with kinds that may not follow it.
* `Chain.forced` — chains, which are an operand and a repetition of operations (`chain_iff`).
* `factor_forced`, `stmt_forced` — the two recursions, by induction on the length of the word.
* `derivesProgram_unique` — a word has at most one program.
-/

namespace Abacus

namespace Grammar

variable {α β : Type} {F G S : TokenKind → Prop} {X : Lang α} {n : Nat}

/-! ## What may follow -/

/-- The first terminal, if there is one, is of a kind in `F`. -/
def Opens (F : TokenKind → Prop) (w : List Terminal) : Prop := ∀ t ∈ w.head?, F t.kind

@[simp]
theorem opens_cons {t : Terminal} {w : List Terminal} : Opens F (t :: w) ↔ F t.kind := by
  simp [Opens]

theorem Opens.mono (h : ∀ k, F k → G k) {w : List Terminal} (hw : Opens F w) : Opens G w :=
  fun t ht => h t.kind (hw t ht)

/-- What ends by itself may be followed by anything. -/
def anyKind (_ : TokenKind) : Prop := True

@[simp]
theorem opens_anyKind (w : List Terminal) : Opens anyKind w := fun _ _ => trivial

/-- The kinds that do not continue a term. -/
def endsTerm (k : TokenKind) : Prop := k ≠ .mul ∧ k ≠ .div

/-- The kinds that do not continue an expression. -/
def endsExpr (k : TokenKind) : Prop := k ≠ .add ∧ k ≠ .sub ∧ endsTerm k

/-- Every word of `X` opens with a kind in `S`. -/
def OpensWith (S : TokenKind → Prop) (X : Lang α) : Prop :=
  ∀ ⦃w a⦄, X w a → ∃ t u, w = t :: u ∧ S t.kind

/-! ## Forced words -/

/-- No other word of `X`, and no other tree, starts a text that starts with `w`, if what follows
either word is in `F`. -/
def Forced (F : TokenKind → Prop) (X : Lang α) (w : List Terminal) (a : α) : Prop :=
  ∀ ⦃w' a' r r'⦄, X w' a' → w ++ r = w' ++ r' → Opens F r → Opens F r' → w' = w ∧ a' = a

theorem Forced.mono (h : ∀ k, F k → G k) {w : List Terminal} {a : α} (hw : Forced G X w a) :
    Forced F X w a :=
  fun _ _ _ _ hX heq hr hr' => hw hX heq (hr.mono h) (hr'.mono h)

/-! ## Repetition -/

theorem Star.snoc {w u : List Terminal} {as : List α} {a : α} (hw : Star X w as) (hu : X u a) :
    Star X (w ++ u) (as ++ [a]) := by
  induction hw with
  | nil => simpa using Star.cons hu Star.nil
  | cons hb _ ih =>
    rw [List.append_assoc]
    exact Star.cons hb ih

/-- A repetition opens with a word, or with what follows it. -/
theorem Star.opens (hX : OpensWith S X) {w r : List Terminal} {as : List α} (hw : Star X w as)
    (hr : Opens F r) : Opens (fun k => F k ∨ S k) (w ++ r) := by
  cases hw with
  | nil => exact hr.mono fun _ => Or.inl
  | cons ha _ =>
    obtain ⟨t, u, rfl, ht⟩ := hX ha
    exact opens_cons.mpr (Or.inr ht)

/-- **Repetitions are forced**, if a word of `X` and what follows the repetition open with
different kinds. -/
theorem Star.forced (hX : OpensWith S X) (hFS : ∀ k, F k → ¬ S k)
    (hforced : ∀ ⦃u a⦄, X u a → u.length ≤ n → Forced (fun k => F k ∨ S k) X u a)
    {w : List Terminal} {as : List α} (hw : Star X w as) (hn : w.length ≤ n) :
    Forced F (Star X) w as := by
  induction hw with
  | nil =>
    intro w' as' r r' hw' heq hr hr'
    cases hw' with
    | nil => exact ⟨rfl, rfl⟩
    | cons ha _ =>
      obtain ⟨t, u, rfl, ht⟩ := hX ha
      rw [List.nil_append] at heq
      subst heq
      exact absurd ht (hFS _ (opens_cons.mp hr))
  | @cons u v a as ha has ih =>
    intro w' as' r r' hw' heq hr hr'
    cases hw' with
    | nil =>
      obtain ⟨t, u, rfl, ht⟩ := hX ha
      rw [List.nil_append] at heq
      subst heq
      exact absurd ht (hFS _ (opens_cons.mp hr'))
    | @cons u' v' a' as' ha' has' =>
      rw [List.length_append] at hn
      simp only [List.append_assoc] at heq
      obtain ⟨rfl, rfl⟩ := hforced ha (by omega) ha' heq (has.opens hX hr) (has'.opens hX hr')
      obtain ⟨rfl, rfl⟩ := ih (by omega) has' (List.append_cancel_left heq) hr hr'
      exact ⟨rfl, rfl⟩

/-! ## Chains -/

/-- An operator and its right operand. -/
inductive Operation (ops : List BinaryOp) (operand : Lang Expr) : Lang (BinaryOp × Expr)
  | mk {op : BinaryOp} {t : Terminal} {w : List Terminal} {e : Expr} (hop : op ∈ ops)
      (ht : t.kind = op.kind) (he : operand w e) : Operation ops operand (t :: w) (op, e)

/-- Applies operations from left to right. -/
def applyAll (l : Expr) (steps : List (BinaryOp × Expr)) : Expr :=
  steps.foldl (fun l s => .binary s.1 l s.2) l

/-- The kinds of some operators. -/
def isOneOf (ops : List BinaryOp) (k : TokenKind) : Prop := ∃ op ∈ ops, k = op.kind

theorem isOneOf_mul_div {k : TokenKind} : isOneOf [.mul, .div] k ↔ k = .mul ∨ k = .div := by
  simp [isOneOf, BinaryOp.kind]

theorem isOneOf_add_sub {k : TokenKind} : isOneOf [.add, .sub] k ↔ k = .add ∨ k = .sub := by
  simp [isOneOf, BinaryOp.kind]

variable {ops : List BinaryOp} {operand : Lang Expr}

theorem operation_opensWith : OpensWith (isOneOf ops) (Operation ops operand) := by
  rintro _ _ ⟨hop, ht, _⟩
  exact ⟨_, _, rfl, _, hop, ht⟩

theorem Chain.append {w u : List Terminal} {l : Expr} {steps : List (BinaryOp × Expr)}
    (hw : Chain ops operand w l) (hu : Star (Operation ops operand) u steps) :
    Chain ops operand (w ++ u) (applyAll l steps) := by
  induction hu generalizing w l with
  | nil => simpa [applyAll] using hw
  | cons ha _ ih =>
    obtain ⟨hop, ht, he⟩ := ha
    rw [← List.append_assoc]
    exact ih (Chain.more hw hop ht he)

/-- **A chain is an operand and a repetition of operations**, applied from left to right. -/
theorem chain_iff {w : List Terminal} {e : Expr} :
    Chain ops operand w e ↔ ∃ u v l steps, operand u l ∧ Star (Operation ops operand) v steps ∧
      w = u ++ v ∧ e = applyAll l steps := by
  constructor
  · intro h
    induction h with
    | @one w e he => exact ⟨w, [], e, [], he, Star.nil, by simp, rfl⟩
    | more _ hop ht hr ih =>
      obtain ⟨u, v, l, steps, hl, hs, rfl, rfl⟩ := ih
      refine ⟨u, _, l, _, hl, hs.snoc (Operation.mk hop ht hr), by simp, ?_⟩
      simp [applyAll]
  · rintro ⟨u, v, l, steps, hl, hs, rfl, rfl⟩
    exact (Chain.one hl).append hs

theorem operation_forced (hforced : ∀ ⦃u e⦄, operand u e → u.length ≤ n → Forced F operand u e)
    {w : List Terminal} {s : BinaryOp × Expr} (hw : Operation ops operand w s)
    (hn : w.length ≤ n) : Forced F (Operation ops operand) w s := by
  obtain ⟨hop, ht, he⟩ := hw
  rw [List.length_cons] at hn
  intro w' s' r r' hw' heq hr hr'
  obtain ⟨hop', ht', he'⟩ := hw'
  simp only [List.cons_append, List.cons.injEq] at heq
  obtain ⟨rfl, heq⟩ := heq
  obtain rfl := BinaryOp.kind_inj (ht.symm.trans ht')
  obtain ⟨rfl, rfl⟩ := hforced he (by omega) he' heq hr hr'
  exact ⟨rfl, rfl⟩

/-- **Chains are forced**, if no operator of theirs may follow them. -/
theorem Chain.forced (hF : ∀ k, F k → ¬ isOneOf ops k)
    (hforced : ∀ ⦃u e⦄, operand u e → u.length ≤ n →
      Forced (fun k => F k ∨ isOneOf ops k) operand u e)
    {w : List Terminal} {e : Expr} (hw : Chain ops operand w e) (hn : w.length ≤ n) :
    Forced F (Chain ops operand) w e := by
  obtain ⟨u, v, l, steps, hl, hs, rfl, rfl⟩ := chain_iff.mp hw
  rw [List.length_append] at hn
  intro w' e' r r' hw' heq hr hr'
  obtain ⟨u', v', l', steps', hl', hs', rfl, rfl⟩ := chain_iff.mp hw'
  simp only [List.append_assoc] at heq
  obtain ⟨rfl, rfl⟩ := hforced hl (by omega) hl' heq (hs.opens operation_opensWith hr)
    (hs'.opens operation_opensWith hr')
  obtain ⟨rfl, rfl⟩ := hs.forced operation_opensWith hF
    (fun _ _ h hle => operation_forced hforced h hle) (by omega) hs'
    (List.append_cancel_left heq) hr hr'
  exact ⟨rfl, rfl⟩

/-! ## Expressions -/

theorem term_forced_of (hfactor : ∀ ⦃u e⦄, DerivesFactor u e → u.length ≤ n →
    Forced anyKind DerivesFactor u e) {w : List Terminal} {e : Expr} (hw : DerivesTerm w e)
    (hn : w.length ≤ n) : Forced endsTerm DerivesTerm w e := by
  refine hw.forced ?_ (fun _ _ hu hle => (hfactor hu hle).mono fun _ _ => trivial) hn
  intro k hk hop
  rcases isOneOf_mul_div.mp hop with hmul | hdiv
  · exact hk.1 hmul
  · exact hk.2 hdiv

theorem expr_forced_of (hfactor : ∀ ⦃u e⦄, DerivesFactor u e → u.length ≤ n →
    Forced anyKind DerivesFactor u e) {w : List Terminal} {e : Expr} (hw : DerivesExpr w e)
    (hn : w.length ≤ n) : Forced endsExpr DerivesExpr w e := by
  refine hw.forced ?_ (fun _ _ hu hle => (term_forced_of hfactor hu hle).mono ?_) hn
  · intro k hk hop
    rcases isOneOf_add_sub.mp hop with hadd | hsub
    · exact hk.1 hadd
    · exact hk.2.1 hsub
  · rintro k (⟨-, -, hk⟩ | hop)
    · exact hk
    · rcases isOneOf_add_sub.mp hop with rfl | rfl <;> exact ⟨nofun, nofun⟩

theorem rparen_endsExpr : endsExpr .rparen := ⟨nofun, nofun, nofun, nofun⟩

theorem semi_endsExpr : endsExpr .semi := ⟨nofun, nofun, nofun, nofun⟩

/-! ### The first terminal decides the rule -/

theorem factor_of_sign {t : Terminal} {w : List Terminal} {e : Expr} {op : UnaryOp}
    (h : DerivesFactor (t :: w) e) (ht : t.kind = op.kind) :
    ∃ e', DerivesFactor w e' ∧ e = .unary op e' := by
  cases h with
  | sign ht' he => exact ⟨_, he, by rw [UnaryOp.kind_inj (ht.symm.trans ht')]⟩
  | @literal _ type ht' => rw [ht'] at ht; cases type <;> cases op <;> cases ht
  | group hl _ _ => rw [hl] at ht; cases op <;> cases ht
  | var ht' => rw [ht'] at ht; cases op <;> cases ht

theorem factor_of_numeral {t : Terminal} {w : List Terminal} {e : Expr} {type : NumType}
    (h : DerivesFactor (t :: w) e) (ht : t.kind = type.numeral) :
    w = [] ∧ e = .literal type t.lexeme := by
  cases h with
  | @sign _ op _ _ ht' _ => rw [ht'] at ht; cases op <;> cases type <;> cases ht
  | literal ht' => exact ⟨rfl, by rw [NumType.numeral_inj (ht.symm.trans ht')]⟩
  | group hl _ _ => rw [hl] at ht; cases type <;> cases ht
  | var ht' => rw [ht'] at ht; cases type <;> cases ht

theorem factor_of_lparen {t : Terminal} {w : List Terminal} {e : Expr}
    (h : DerivesFactor (t :: w) e) (ht : t.kind = .lparen) :
    ∃ u r, DerivesExpr u e ∧ r.kind = .rparen ∧ w = u ++ [r] := by
  cases h with
  | @sign _ op _ _ ht' _ => rw [ht'] at ht; cases op <;> cases ht
  | @literal _ type ht' => rw [ht'] at ht; cases type <;> cases ht
  | group _ he hr => exact ⟨_, _, he, hr, rfl⟩
  | var ht' => rw [ht'] at ht; cases ht

theorem factor_of_ident {t : Terminal} {w : List Terminal} {e : Expr}
    (h : DerivesFactor (t :: w) e) (ht : t.kind = .ident) : w = [] ∧ e = .var t.lexeme := by
  cases h with
  | @sign _ op _ _ ht' _ => rw [ht'] at ht; cases op <;> cases ht
  | @literal _ type ht' => rw [ht'] at ht; cases type <;> cases ht
  | group hl _ _ => rw [hl] at ht; cases ht
  | var _ => exact ⟨rfl, rfl⟩

theorem factor_ne_nil {w : List Terminal} {e : Expr} (h : DerivesFactor w e) : w ≠ [] := by
  cases h <;> simp

/-- **Factors are forced**, whatever follows them. -/
theorem factor_forced_of_length : ∀ (n : Nat) ⦃w : List Terminal⦄ ⦃e : Expr⦄,
    DerivesFactor w e → w.length ≤ n → Forced anyKind DerivesFactor w e := by
  intro n
  induction n with
  | zero =>
    intro w e hw hn
    exact absurd (List.eq_nil_of_length_eq_zero (Nat.le_zero.mp hn)) (factor_ne_nil hw)
  | succ n ih =>
    intro w e hw hn w' e' r r' hw' heq _ _
    obtain ⟨t', u', rfl⟩ := List.exists_cons_of_ne_nil (factor_ne_nil hw')
    cases hw with
    | sign ht he =>
      simp only [List.cons_append, List.cons.injEq] at heq
      obtain ⟨rfl, heq⟩ := heq
      obtain ⟨e₁, he₁, rfl⟩ := factor_of_sign hw' ht
      obtain ⟨rfl, rfl⟩ := ih he (Nat.le_of_succ_le_succ hn) he₁ heq (opens_anyKind r)
        (opens_anyKind r')
      exact ⟨rfl, rfl⟩
    | literal ht =>
      simp only [List.cons_append, List.cons.injEq] at heq
      obtain ⟨rfl, heq⟩ := heq
      obtain ⟨rfl, rfl⟩ := factor_of_numeral hw' ht
      exact ⟨rfl, rfl⟩
    | @group l rp u e hl he hrp =>
      simp only [List.cons_append, List.append_assoc, List.cons.injEq] at heq
      obtain ⟨rfl, heq⟩ := heq
      obtain ⟨v, rp', he', hrp', rfl⟩ := factor_of_lparen hw' hl
      simp only [List.cons_append, List.length_cons, List.length_append] at hn
      simp only [List.append_assoc, List.cons_append, List.nil_append] at heq
      obtain ⟨rfl, rfl⟩ := expr_forced_of ih he (by omega) he' heq
        (opens_cons.mpr (hrp ▸ rparen_endsExpr)) (opens_cons.mpr (hrp' ▸ rparen_endsExpr))
      obtain ⟨rfl, -⟩ := List.cons_eq_cons.mp (List.append_cancel_left heq)
      exact ⟨rfl, rfl⟩
    | var ht =>
      simp only [List.cons_append, List.cons.injEq] at heq
      obtain ⟨rfl, heq⟩ := heq
      obtain ⟨rfl, rfl⟩ := factor_of_ident hw' ht
      exact ⟨rfl, rfl⟩

theorem factor_forced {w : List Terminal} {e : Expr} (h : DerivesFactor w e) :
    Forced anyKind DerivesFactor w e :=
  factor_forced_of_length w.length h (Nat.le_refl _)

theorem term_forced {w : List Terminal} {e : Expr} (h : DerivesTerm w e) :
    Forced endsTerm DerivesTerm w e :=
  term_forced_of (fun _ _ hu _ => factor_forced hu) h (Nat.le_refl _)

theorem expr_forced {w : List Terminal} {e : Expr} (h : DerivesExpr w e) :
    Forced endsExpr DerivesExpr w e :=
  expr_forced_of (fun _ _ hu _ => factor_forced hu) h (Nat.le_refl _)

/-! ## Statements -/

theorem stmt_of_lbrace {t : Terminal} {w : List Terminal} {s : Stmt}
    (h : DerivesStmt (t :: w) s) (ht : t.kind = .lbrace) :
    ∃ ss, DerivesCompound (t :: w) ss ∧ s = .block ss := by
  generalize hw : t :: w = v at h
  cases h with
  | block hss => exact ⟨_, hss, rfl⟩
  | assign hx _ _ _ => cases hw; rw [hx] at ht; cases ht
  | @declare _ _ _ type hk _ _ => cases hw; rw [hk] at ht; cases type <;> cases ht

theorem compound_opensWith {stmt : Lang Stmt} : OpensWith (· = .lbrace) (Compound stmt) := by
  rintro _ _ (⟨hl, _⟩ | ⟨hl, _, _, _⟩)
  · exact ⟨_, _, rfl, hl⟩
  · exact ⟨_, _, rfl, hl⟩

theorem stmt_of_ident {t : Terminal} {w : List Terminal} {s : Stmt}
    (h : DerivesStmt (t :: w) s) (ht : t.kind = .ident) :
    ∃ eq u semi e, eq.kind = .assign ∧ DerivesExpr u e ∧ semi.kind = .semi ∧
      w = eq :: u ++ [semi] ∧ s = .assign t.lexeme e := by
  generalize hw : t :: w = v at h
  cases h with
  | block hss =>
    obtain ⟨_, _, rfl, hl⟩ := compound_opensWith hss
    cases hw
    rw [hl] at ht
    cases ht
  | assign _ heq he hsemi => cases hw; exact ⟨_, _, _, _, heq, he, hsemi, rfl, rfl⟩
  | @declare _ _ _ type hk _ _ => cases hw; rw [hk] at ht; cases type <;> cases ht

theorem stmt_of_keyword {t : Terminal} {w : List Terminal} {s : Stmt} {type : NumType}
    (h : DerivesStmt (t :: w) s) (ht : t.kind = type.keyword) :
    ∃ x semi, x.kind = .ident ∧ semi.kind = .semi ∧ w = [x, semi] ∧
      s = .declare type x.lexeme := by
  generalize hw : t :: w = v at h
  cases h with
  | block hss =>
    obtain ⟨_, _, rfl, hl⟩ := compound_opensWith hss
    cases hw
    rw [hl] at ht
    cases type <;> cases ht
  | assign hx _ _ _ => cases hw; rw [hx] at ht; cases type <;> cases ht
  | declare hk hx hsemi =>
    cases hw
    obtain rfl := NumType.keyword_inj (ht.symm.trans hk)
    exact ⟨_, _, hx, hsemi, rfl, rfl⟩

/-- The kinds that open a statement. -/
def opensStmt (k : TokenKind) : Prop := k = .lbrace ∨ k = .ident ∨ k = .int ∨ k = .float

theorem keyword_opensStmt (type : NumType) : opensStmt type.keyword := by
  cases type
  · exact Or.inr (Or.inr (Or.inl rfl))
  · exact Or.inr (Or.inr (Or.inr rfl))

theorem stmt_opensWith : OpensWith opensStmt DerivesStmt := by
  intro w s h
  cases h with
  | block hss =>
    obtain ⟨t, u, rfl, ht⟩ := compound_opensWith hss
    exact ⟨t, u, rfl, Or.inl ht⟩
  | assign hx _ _ _ => exact ⟨_, _, rfl, Or.inr (Or.inl hx)⟩
  | @declare _ _ _ type hk _ _ => exact ⟨_, _, rfl, hk ▸ keyword_opensStmt type⟩

/-- The statements of a block: none read is the one statement `empty`. -/
def orEmpty : List Stmt → List Stmt
  | [] => [.empty]
  | s :: ss => s :: ss

/-- A block is a repetition of statements in braces. -/
theorem compound_iff {stmt : Lang Stmt} {w : List Terminal} {ss : List Stmt} :
    Compound stmt w ss ↔ ∃ l u r ss', l.kind = .lbrace ∧ Star stmt u ss' ∧ r.kind = .rbrace ∧
      w = l :: u ++ [r] ∧ ss = orEmpty ss' := by
  constructor
  · rintro (⟨hl, hr⟩ | ⟨hl, hss, hne, hr⟩)
    · exact ⟨_, [], _, [], hl, Star.nil, hr, rfl, rfl⟩
    · obtain ⟨s, ss', rfl⟩ := List.exists_cons_of_ne_nil hne
      exact ⟨_, _, _, _, hl, hss, hr, rfl, rfl⟩
  · rintro ⟨l, u, r, ss', hl, hss, hr, rfl, rfl⟩
    cases hss with
    | nil => exact Compound.empty hl hr
    | cons ha has => exact Compound.full hl (Star.cons ha has) (List.cons_ne_nil _ _) hr

/-- A statement opens with no closing brace. -/
theorem not_opensStmt_rbrace : ∀ k, k = TokenKind.rbrace → ¬ opensStmt k := by
  rintro k rfl (h | h | h | h) <;> cases h

theorem compound_forced_of (hstmt : ∀ ⦃u s⦄, DerivesStmt u s → u.length ≤ n →
    Forced anyKind DerivesStmt u s) {w : List Terminal} {ss : List Stmt}
    (hw : DerivesCompound w ss) (hn : w.length ≤ n + 1) : Forced anyKind DerivesCompound w ss := by
  obtain ⟨l, u, rb, ss₁, hl, hss, hrb, rfl, rfl⟩ := compound_iff.mp hw
  intro w' ss' r r' hw' heq _ _
  obtain ⟨l', u', rb', ss₁', hl', hss', hrb', rfl, rfl⟩ := compound_iff.mp hw'
  simp only [List.cons_append, List.append_assoc, List.cons.injEq, List.nil_append] at heq
  obtain ⟨rfl, heq⟩ := heq
  simp only [List.cons_append, List.length_cons, List.length_append] at hn
  obtain ⟨rfl, rfl⟩ := hss.forced stmt_opensWith not_opensStmt_rbrace
    (fun _ _ hu hle => (hstmt hu hle).mono fun _ _ => trivial) (by omega) hss' heq
    (opens_cons.mpr hrb) (opens_cons.mpr hrb')
  obtain ⟨rfl, -⟩ := List.cons_eq_cons.mp (List.append_cancel_left heq)
  exact ⟨rfl, rfl⟩

/-- **Statements are forced**, whatever follows them. -/
theorem stmt_forced_of_length : ∀ (n : Nat) ⦃w : List Terminal⦄ ⦃s : Stmt⦄,
    DerivesStmt w s → w.length ≤ n → Forced anyKind DerivesStmt w s := by
  intro n
  induction n with
  | zero =>
    intro w s hw hn
    obtain ⟨t, u, rfl, -⟩ := stmt_opensWith hw
    simp at hn
  | succ n ih =>
    intro w s hw hn w' s' r r' hw' heq hr hr'
    obtain ⟨t', u', rfl, -⟩ := stmt_opensWith hw'
    cases hw with
    | block hss =>
      obtain ⟨t, u, rfl, ht⟩ := compound_opensWith hss
      simp only [List.cons_append, List.cons.injEq] at heq
      obtain ⟨rfl, heq⟩ := heq
      obtain ⟨ss', hss', rfl⟩ := stmt_of_lbrace hw' ht
      obtain ⟨hu, rfl⟩ := compound_forced_of ih hss hn hss' (congrArg (t :: ·) heq) hr hr'
      exact ⟨hu, rfl⟩
    | assign hx hasg he hsemi =>
      simp only [List.cons_append, List.cons.injEq, List.append_assoc, List.nil_append] at heq
      obtain ⟨rfl, heq⟩ := heq
      obtain ⟨eq', v, semi', e', -, he', hsemi', rfl, rfl⟩ := stmt_of_ident hw' hx
      simp only [List.cons_append, List.cons.injEq, List.append_assoc, List.nil_append] at heq
      obtain ⟨rfl, heq⟩ := heq
      obtain ⟨rfl, rfl⟩ := expr_forced he he' heq (opens_cons.mpr (hsemi ▸ semi_endsExpr))
        (opens_cons.mpr (hsemi' ▸ semi_endsExpr))
      obtain ⟨rfl, -⟩ := List.cons_eq_cons.mp (List.append_cancel_left heq)
      exact ⟨rfl, rfl⟩
    | declare hk hx hsemi =>
      simp only [List.cons_append, List.cons.injEq] at heq
      obtain ⟨rfl, heq⟩ := heq
      obtain ⟨x', semi', -, -, rfl, rfl⟩ := stmt_of_keyword hw' hk
      simp only [List.cons_append, List.cons.injEq] at heq
      obtain ⟨rfl, rfl, -⟩ := heq
      exact ⟨rfl, rfl⟩

theorem stmt_forced {w : List Terminal} {s : Stmt} (h : DerivesStmt w s) :
    Forced anyKind DerivesStmt w s :=
  stmt_forced_of_length w.length h (Nat.le_refl _)

theorem compound_forced {w : List Terminal} {ss : List Stmt} (h : DerivesCompound w ss) :
    Forced anyKind DerivesCompound w ss :=
  compound_forced_of (fun _ _ hu _ => stmt_forced hu) h (Nat.le_succ _)

/-! ## Programs -/

theorem param_forced {w : List Terminal} {p : Param} (h : DerivesParam w p) :
    Forced anyKind DerivesParam w p := by
  obtain ⟨hk, hx⟩ := h
  intro w' p' r r' hw' heq _ _
  obtain ⟨hk', hx'⟩ := hw'
  simp only [List.cons_append, List.cons.injEq] at heq
  obtain ⟨rfl, rfl, -⟩ := heq
  obtain rfl := NumType.keyword_inj (hk.symm.trans hk')
  exact ⟨rfl, rfl⟩

theorem nextParam_forced {w : List Terminal} {p : Param} (h : DerivesNextParam w p) :
    Forced anyKind DerivesNextParam w p := by
  obtain ⟨-, hp⟩ := h
  intro w' p' r r' hw' heq hr hr'
  obtain ⟨-, hp'⟩ := hw'
  simp only [List.cons_append, List.cons.injEq] at heq
  obtain ⟨rfl, heq⟩ := heq
  obtain ⟨rfl, rfl⟩ := param_forced hp hp' heq hr hr'
  exact ⟨rfl, rfl⟩

theorem nextParam_opensWith : OpensWith (· = .comma) DerivesNextParam := by
  rintro _ _ ⟨hc, _⟩
  exact ⟨_, _, rfl, hc⟩

theorem moreParams_forced {w : List Terminal} {ps : List Param} (h : Star DerivesNextParam w ps) :
    Forced (· ≠ .comma) (Star DerivesNextParam) w ps :=
  h.forced nextParam_opensWith (fun _ hk => hk)
    (fun _ _ hu _ => (nextParam_forced hu).mono fun _ _ => trivial) (Nat.le_refl _)

theorem params_forced {w : List Terminal} {ps : List Param} (h : DerivesParams w ps) :
    Forced (· ≠ .comma) DerivesParams w ps := by
  obtain ⟨hp, hps⟩ := h
  intro w' ps' r r' hw' heq hr hr'
  obtain ⟨hp', hps'⟩ := hw'
  simp only [List.append_assoc] at heq
  obtain ⟨rfl, rfl⟩ := param_forced hp hp' heq (opens_anyKind _) (opens_anyKind _)
  obtain ⟨rfl, rfl⟩ := moreParams_forced hps hps' (List.append_cancel_left heq) hr hr'
  exact ⟨rfl, rfl⟩

/-- **Functions are forced**, whatever follows them. -/
theorem function_forced {w : List Terminal} {p : Program} (h : DerivesFunction w p) :
    Forced anyKind DerivesFunction w p := by
  obtain ⟨-, -, -, -, hparams, hr, hbody⟩ := h
  intro w' p' r r' hw' heq hR hR'
  obtain ⟨-, -, -, -, hparams', hr', hbody'⟩ := hw'
  simp only [List.cons_append, List.append_assoc, List.cons.injEq] at heq
  obtain ⟨rfl, rfl, rfl, heq⟩ := heq
  obtain ⟨rfl, rfl⟩ := params_forced hparams hparams' heq
    (opens_cons.mpr (by rw [hr]; nofun)) (opens_cons.mpr (by rw [hr']; nofun))
  obtain ⟨rfl, hrest⟩ := List.cons_eq_cons.mp (List.append_cancel_left heq)
  obtain ⟨rfl, rfl⟩ := compound_forced hbody hbody' hrest hR hR'
  exact ⟨rfl, rfl⟩

/-- **A word has at most one program.** -/
theorem derivesProgram_unique {w : List Terminal} {p q : Program} (hp : DerivesProgram w p)
    (hq : DerivesProgram w q) : p = q := by
  generalize hw : w = v at hq
  obtain ⟨hp, -⟩ := hp
  obtain ⟨hq, -⟩ := hq
  exact (function_forced hq hp hw.symm (opens_anyKind _) (opens_anyKind _)).2

end Grammar

end Abacus
