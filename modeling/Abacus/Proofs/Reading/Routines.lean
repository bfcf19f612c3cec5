import Abacus.Proofs.Reading.Lockstep

/-!
# Routines and their scripts

Productions call each other, and some of them loop. Here their calls are laid open. A routine is a
production, or the rounds that are left of a loop. Its script says which tokens it takes and which
routine it calls next; what it does after a call depends on what was read.

Following its script, with the answers of the routines it calls, gives what a routine reads
(`Routine.eval_script`). The same script can be followed with other answers, some of them missing;
only the calls that are made need one (`Script.evalWith_eq`).
-/

namespace Abacus

namespace Parser

variable {α : Type} {p : Parser}

/-! ## Routines -/

/-- What a production reads. -/
def Production.Tree : Production → Type
  | program => Program
  | params => List Param
  | param => Param
  | block | statements => List Stmt
  | stmt | declare | assign => Stmt
  | expr | term | factor | grouping => Expr
  | name => String
  | type => NumType

/-- Calls a production. -/
def Production.read (p : Parser) : (f : Production) → Attempt Diagnostic Parser f.Tree
  | program => p.program.attempt
  | params => p.params.attempt
  | param => p.param.attempt
  | block => p.block.attempt
  | statements => p.statements.attempt
  | stmt => p.stmt.attempt
  | declare => p.declare.attempt
  | assign => p.assign.attempt
  | expr => p.expr.attempt
  | term => p.term.attempt
  | factor => p.factor.attempt
  | grouping => p.grouping.attempt
  | name => p.name.attempt
  | type => p.type.attempt

theorem Production.call_eq (f : Production) : f.call p = (f.read p).void := by
  cases f <;> rfl

/-- A production, or the rounds that are left of its loop. -/
inductive Routine where
  | production (f : Production)
  | moreParams
  | moreStatements
  | moreTerms (left : Expr)
  | moreFactors (left : Expr)

namespace Routine

/-- What a routine reads. -/
def Tree : Routine → Type
  | production f => f.Tree
  | moreParams => List Param
  | moreStatements => List Stmt
  | moreTerms _ | moreFactors _ => Expr

/-- Calls a routine. -/
def read (p : Parser) : (f : Routine) → Attempt Diagnostic Parser f.Tree
  | production f => f.read p
  | moreParams => p.paramsTail.attempt
  | moreStatements => p.statementsTail.attempt
  | moreTerms left => (exprTail left p).attempt
  | moreFactors left => (termTail left p).attempt

/-- The production that a loop belongs to. -/
def owner : Routine → Production
  | production f => f
  | moreParams => .params
  | moreStatements => .statements
  | moreTerms _ => .expr
  | moreFactors _ => .term

/-- A production is entered in any case, and a loop goes on to a round if its test lets it. -/
def Enters (p : Parser) : Routine → Prop
  | production _ => True
  | moreParams => p.kind = .comma
  | moreStatements => p.kind ≠ .rbrace
  | moreTerms _ => p.kind.additive?.isSome
  | moreFactors _ => p.kind.multiplicative?.isSome

end Routine

/-! ## Scripts -/

/-- What a routine has still to do: it has its answer, or it calls a routine and goes on with what
that reads. -/
inductive Script (α : Type) where
  | answer (a : Attempt Diagnostic Parser α)
  | call (f : Routine) (p : Parser) (k : f.Tree → Parser → Script α)

namespace Script

/-- Goes on with a token. -/
def token (a : Attempt Diagnostic Parser Token) (k : Token → Parser → Script α) : Script α :=
  match a with
  | (.ok t, q) => k t q
  | (.error d, q) => answer (.error d, q)

/-- Follows a script to its answer. -/
def eval : Script α → Attempt Diagnostic Parser α
  | answer a => a
  | call f p k => (f.read p).andThen fun x q => (k x q).eval

/-- Follows a script with other answers to its calls, which may be missing. -/
def evalWith (answers : (f : Routine) → Parser → Option (Attempt Diagnostic Parser f.Tree)) :
    Script α → Option (Attempt Diagnostic Parser α)
  | answer a => some a
  | call f p k =>
    match answers f p with
    | some (.ok x, q) => (k x q).evalWith answers
    | some (.error d, q) => some (.error d, q)
    | none => none

/-- Following the script leads to a call of `g` at `q`. -/
inductive Calls (g : Routine) (q : Parser) : Script α → Prop
  | here (k : g.Tree → Parser → Script α) : Calls g q (call g q k)
  | later {f : Routine} {p r : Parser} {k : f.Tree → Parser → Script α} {x : f.Tree}
      (hread : f.read p = (.ok x, r)) (h : Calls g q (k x r)) : Calls g q (call f p k)

@[simp]
theorem eval_answer (a : Attempt Diagnostic Parser α) : (answer a).eval = a := rfl

@[simp]
theorem eval_call (f : Routine) (p : Parser) (k : f.Tree → Parser → Script α) :
    (call f p k).eval = (f.read p).andThen fun x q => (k x q).eval := rfl

@[simp]
theorem eval_token (a : Attempt Diagnostic Parser Token) (k : Token → Parser → Script α) :
    (token a k).eval = a.andThen fun t q => (k t q).eval := by
  obtain ⟨_ | _, q⟩ := a <;> rfl

/-- Only the calls that are made need an answer. -/
theorem evalWith_eq {answers : (f : Routine) → Parser → Option (Attempt Diagnostic Parser f.Tree)}
    (s : Script α) (h : ∀ g q, s.Calls g q → answers g q = some (g.read q)) :
    s.evalWith answers = some s.eval := by
  induction s with
  | answer a => rfl
  | call f p k ih =>
    rw [evalWith, h f p (.here k), eval_call]
    rcases hread : f.read p with ⟨d | x, q⟩
    · rfl
    · exact ih x q fun g r hcall => h g r (.later hread hcall)

end Script

/-- The script of a production. -/
def Production.script (p : Parser) : (f : Production) → Script f.Tree
  | program =>
    if p.kind = .ident ∧ p.current.lexeme = functionKeyword then
      .token p.advance fun _ q =>
        .token (q.expect .ident) fun t r =>
          .token (r.expect .lparen) fun _ s =>
            .call (.production params) s fun params u =>
              .token (u.expect .rparen) fun _ v =>
                .call (.production block) v fun body w =>
                  .answer (.ok (Program.mk t.lexeme params body), w)
    else .answer (.error (p.unexpected "expected `function`"), p)
  | params =>
    .call (.production param) p fun first q =>
      .call .moreParams q fun others r => .answer (.ok (List.cons first others), r)
  | param =>
    .call (.production type) p fun type q =>
      .token (q.expect .ident) fun t r => .answer (.ok (Param.mk type t.lexeme), r)
  | block =>
    .token (p.expect .lbrace) fun _ q =>
      .call (.production statements) q fun body r =>
        .token (r.expect .rbrace) fun _ s => .answer (.ok body, s)
  | statements =>
    .call (.production stmt) p fun first q =>
      .call .moreStatements q fun others r => .answer (.ok (List.cons first others), r)
  | stmt =>
    match p.kind with
    | .lbrace => .call (.production block) p fun body q => .answer (.ok (Stmt.block body), q)
    | .ident => .call (.production assign) p fun s q => .answer (.ok s, q)
    | .int | .float => .call (.production declare) p fun s q => .answer (.ok s, q)
    | .rbrace => .answer (.ok Stmt.empty, p)
    | _ => .answer (.error (p.unexpected "expected a statement"), p)
  | declare =>
    .call (.production type) p fun type q =>
      .call (.production name) q fun x r =>
        .token (r.expect .semi) fun _ s => .answer (.ok (Stmt.declare type x), s)
  | assign =>
    .call (.production name) p fun target q =>
      .token (q.expect .assign) fun _ r =>
        .call (.production expr) r fun value s =>
          .token (s.expect .semi) fun _ u => .answer (.ok (Stmt.assign target value), u)
  | expr =>
    .call (.production term) p fun left q =>
      .call (.moreTerms left) q fun e r => .answer (.ok e, r)
  | term =>
    .call (.production factor) p fun left q =>
      .call (.moreFactors left) q fun e r => .answer (.ok e, r)
  | factor =>
    match p.kind.sign? with
    | some op =>
      .token p.advance fun _ q =>
        .call (.production factor) q fun operand r => .answer (.ok (Expr.unary op operand), r)
    | none =>
      match p.kind.literal? with
      | some kind => .token p.advance fun t q => .answer (.ok (Expr.literal kind t.lexeme), q)
      | none =>
        if p.kind = .lparen then .call (.production grouping) p fun e q => .answer (.ok e, q)
        else .call (.production name) p fun x q => .answer (.ok (Expr.var x), q)
  | grouping =>
    .token (p.expect .lparen) fun _ q =>
      .call (.production expr) q fun e r =>
        .token (r.expect .rparen) fun _ s => .answer (.ok e, s)
  | name => .token (p.expect .ident) fun t q => .answer (.ok t.lexeme, q)
  | type =>
    match p.kind.numType? with
    | some kind => .token p.advance fun _ q => .answer (.ok kind, q)
    | none => .answer (.error (p.unexpected "expected a type (`int` or `float`)"), p)

/-- The script of a routine. A loop tests the current token, reads a round and goes on. -/
def Routine.script (p : Parser) : (f : Routine) → Script f.Tree
  | production f => f.script p
  | moreParams =>
    if p.kind = .comma then
      .token p.advance fun _ q =>
        .call (.production .param) q fun next r =>
          .call .moreParams r fun others s => .answer (.ok (List.cons next others), s)
    else .answer (.ok (List.nil : List Param), p)
  | moreStatements =>
    if p.kind = .rbrace then .answer (.ok (List.nil : List Stmt), p)
    else
      .call (.production .stmt) p fun next q =>
        .call .moreStatements q fun others r => .answer (.ok (List.cons next others), r)
  | moreTerms left =>
    match p.kind.additive? with
    | some op =>
      .token p.advance fun _ q =>
        .call (.production .term) q fun right r =>
          .call (.moreTerms (.binary op left right)) r fun e s => .answer (.ok e, s)
    | none => .answer (.ok left, p)
  | moreFactors left =>
    match p.kind.multiplicative? with
    | some op =>
      .token p.advance fun _ q =>
        .call (.production .factor) q fun right r =>
          .call (.moreFactors (.binary op left right)) r fun e s => .answer (.ok e, s)
    | none => .answer (.ok left, p)

/-! ## Scripts and readings -/

@[simp]
theorem andThen_pure (a : Attempt Diagnostic Parser α) :
    (a.andThen fun x q => (.ok x, q)) = a := by
  obtain ⟨_ | _, q⟩ := a <;> rfl

theorem attempt_stmt_eq (p : Parser) :
    p.stmt.attempt =
      match p.kind with
      | .lbrace => p.block.attempt.andThen fun body q => (.ok (.block body), q)
      | .ident => p.assign.attempt
      | .int | .float => p.declare.attempt
      | .rbrace => (.ok .empty, p)
      | _ => (.error (p.unexpected "expected a statement"), p) := by
  rw [attempt_stmt, attempt_properStmt]
  cases p.kind <;> rfl

theorem attempt_statements_eq (p : Parser) :
    p.statements.attempt =
      p.stmt.attempt.andThen fun first q =>
        q.statementsTail.attempt.andThen fun others r => (.ok (first :: others), r) := by
  rw [attempt_statements, attempt_stmt]
  by_cases hk : p.kind = .rbrace
  · rw [if_pos hk, if_pos hk, Attempt.andThen_ok, attempt_statementsTail, if_pos hk]
    rfl
  · rw [if_neg hk, if_neg hk, attempt_statementsTail, if_neg hk]

theorem Production.eval_script (p : Parser) (f : Production) : (f.script p).eval = f.read p := by
  cases f with
  | program =>
    simp only [script, read, attempt_program]
    by_cases h : p.kind = .ident ∧ p.current.lexeme = functionKeyword
    · rw [if_pos h, if_pos h, expect, expectOr, if_pos h.1]
      simp only [Script.eval_token, Script.eval_call, Script.eval_answer, attempt_name,
        Attempt.andThen_assoc]
      rfl
    · rw [if_neg h, if_neg h]
      rfl
  | params => exact (attempt_params p).symm
  | param =>
    simp only [script, read, attempt_param, attempt_name, Script.eval_token, Script.eval_call,
      Script.eval_answer, Attempt.andThen_assoc]
    rfl
  | block =>
    simp only [script, Script.eval_token, Script.eval_call, Script.eval_answer]
    exact (attempt_block p).symm
  | statements => exact (attempt_statements_eq p).symm
  | stmt =>
    rw [read, attempt_stmt_eq, script]
    cases p.kind
    case ident => exact andThen_pure p.assign.attempt
    case int => exact andThen_pure p.declare.attempt
    case float => exact andThen_pure p.declare.attempt
    all_goals rfl
  | declare =>
    simp only [script, Script.eval_token, Script.eval_call, Script.eval_answer]
    exact (attempt_declare p).symm
  | assign =>
    simp only [script, Script.eval_token, Script.eval_call, Script.eval_answer]
    exact (attempt_assign p).symm
  | expr =>
    rw [read, attempt_expr]
    exact congrArg p.term.attempt.andThen
      (funext fun left => funext fun q => andThen_pure (exprTail left q).attempt)
  | term =>
    rw [read, attempt_term]
    exact congrArg p.factor.attempt.andThen
      (funext fun left => funext fun q => andThen_pure (termTail left q).attempt)
  | factor =>
    rw [read, attempt_factor, script]
    cases p.kind.sign? with
    | some op =>
      simp only [Script.eval_token, Script.eval_call, Script.eval_answer]
      rfl
    | none =>
    cases p.kind.literal? with
    | some kind =>
      simp only [Script.eval_token, Script.eval_answer]
      rfl
    | none =>
    by_cases hk : p.kind = .lparen
    · simp only [if_pos hk, Script.eval_call, Script.eval_answer]
      exact andThen_pure p.grouping.attempt
    · simp only [if_neg hk, Script.eval_call, Script.eval_answer]
      rfl
  | grouping =>
    simp only [script, Script.eval_token, Script.eval_call, Script.eval_answer]
    exact (attempt_grouping p).symm
  | name =>
    simp only [script, Script.eval_token, Script.eval_answer]
    exact (attempt_name p).symm
  | type =>
    rw [read, attempt_type, script]
    cases p.kind.numType? with
    | some kind =>
      simp only [Script.eval_token, Script.eval_answer]
      rfl
    | none => rfl

/-- **Following its script gives what a routine reads.** -/
theorem Routine.eval_script (p : Parser) (f : Routine) : (f.script p).eval = f.read p := by
  cases f with
  | production f => exact f.eval_script p
  | moreParams =>
    rw [read, attempt_paramsTail, script]
    by_cases hk : p.kind = .comma
    · rw [if_pos hk, if_pos hk, expect, expectOr, if_pos hk]
      simp only [Script.eval_token, Script.eval_call, Script.eval_answer]
      rfl
    · rw [if_neg hk, if_neg hk]
      rfl
  | moreStatements =>
    rw [read, attempt_statementsTail, script]
    by_cases hk : p.kind = .rbrace
    · rw [if_pos hk, if_pos hk]
      rfl
    · rw [if_neg hk, if_neg hk]
      have hstmt : p.stmt.attempt = p.properStmt.attempt := by rw [attempt_stmt, if_neg hk]
      rw [← hstmt]
      rfl
  | moreTerms left =>
    rw [read, attempt_exprTail, script]
    cases p.kind.additive? with
    | some op =>
      simp only [Script.eval_token, Script.eval_call, Script.eval_answer]
      refine congrArg p.advance.andThen (funext fun _ => funext fun q => ?_)
      exact congrArg q.term.attempt.andThen
        (funext fun right => funext fun r =>
          andThen_pure (exprTail (.binary op left right) r).attempt)
    | none => rfl
  | moreFactors left =>
    rw [read, attempt_termTail, script]
    cases p.kind.multiplicative? with
    | some op =>
      simp only [Script.eval_token, Script.eval_call, Script.eval_answer]
      refine congrArg p.advance.andThen (funext fun _ => funext fun q => ?_)
      exact congrArg q.factor.attempt.andThen
        (funext fun right => funext fun r =>
          andThen_pure (termTail (.binary op left right) r).attempt)
    | none => rfl

end Parser

end Abacus
