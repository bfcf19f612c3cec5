import Abacus.Program.Parser.Stmt

/-!
# Equations of the productions

Each production as an attempt, in terms of `advance`, `expect` and the attempts of the productions
it calls. The bounds that make them end do not appear.
-/

namespace Abacus.Parser

/-! ## Types and expressions -/

theorem attempt_type (p : Parser) :
    p.type.attempt =
      match p.kind.numType? with
      | some type => p.advance.andThen fun _ q => (.ok type, q)
      | none => (.error (p.unexpected "expected a type (`int` or `float`)"), p) := by
  rw [type]
  split <;> rename_i h <;> simp [h, attempt_take]

theorem attempt_name (p : Parser) :
    p.name.attempt = (p.expect .ident).andThen fun t q => (.ok t.lexeme, q) := by
  simp [name, attempt_need]

theorem attempt_expr (p : Parser) :
    p.expr.attempt = p.term.attempt.andThen fun left q => (exprTail left q).attempt := by
  rw [expr]
  simp

theorem attempt_exprTail (left : Expr) (p : Parser) :
    (exprTail left p).attempt =
      match p.kind.additive? with
      | none => (.ok left, p)
      | some op =>
        p.advance.andThen fun _ q =>
          q.term.attempt.andThen fun right r => (exprTail (.binary op left right) r).attempt := by
  rw [exprTail]
  split <;> rename_i h <;> simp [h, attempt_take]

theorem attempt_term (p : Parser) :
    p.term.attempt = p.factor.attempt.andThen fun left q => (termTail left q).attempt := by
  rw [term]
  simp

theorem attempt_termTail (left : Expr) (p : Parser) :
    (termTail left p).attempt =
      match p.kind.multiplicative? with
      | none => (.ok left, p)
      | some op =>
        p.advance.andThen fun _ q =>
          q.factor.attempt.andThen fun right r =>
            (termTail (.binary op left right) r).attempt := by
  rw [termTail]
  split <;> rename_i h <;> simp [h, attempt_take]

theorem attempt_factor (p : Parser) :
    p.factor.attempt =
      match p.kind.sign? with
      | some op =>
        p.advance.andThen fun _ q => q.factor.attempt.andThen fun e r => (.ok (.unary op e), r)
      | none =>
        match p.kind.literal? with
        | some type => p.advance.andThen fun t q => (.ok (.literal type t.lexeme), q)
        | none =>
          if p.kind = .lparen then p.grouping.attempt
          else p.name.attempt.andThen fun x q => (.ok (.var x), q) := by
  rw [factor]
  split <;> rename_i hs
  · simp [hs, attempt_take]
  · simp only [hs]
    split <;> rename_i hl
    · simp [hl, attempt_take]
    · simp only [hl]
      split <;> simp

theorem attempt_grouping (p : Parser) :
    p.grouping.attempt =
      (p.expect .lparen).andThen fun _ q =>
        q.expr.attempt.andThen fun e r => (r.expect .rparen).andThen fun _ s => (.ok e, s) := by
  rw [grouping]
  simp [attempt_need]

/-! ## Statements -/

theorem attempt_declare (p : Parser) :
    p.declare.attempt =
      p.type.attempt.andThen fun type q =>
        q.name.attempt.andThen fun name r =>
          (r.expect .semi).andThen fun _ s => (.ok (.declare type name), s) := by
  simp [declare, attempt_need]

theorem attempt_assign (p : Parser) :
    p.assign.attempt =
      p.name.attempt.andThen fun target q =>
        (q.expect .assign).andThen fun _ r =>
          r.expr.attempt.andThen fun value s =>
            (s.expect .semi).andThen fun _ u => (.ok (.assign target value), u) := by
  simp [assign, attempt_need]

theorem attempt_block (p : Parser) :
    p.block.attempt =
      (p.expect .lbrace).andThen fun _ q =>
        q.statements.attempt.andThen fun body r =>
          (r.expect .rbrace).andThen fun _ s => (.ok body, s) := by
  rw [block]
  simp [attempt_need]

theorem attempt_statements (p : Parser) :
    p.statements.attempt =
      if p.kind = .rbrace then (.ok [.empty], p) else p.statementsTail.attempt := by
  rw [statements]
  split <;> simp

theorem attempt_statementsTail (p : Parser) :
    p.statementsTail.attempt =
      if p.kind = .rbrace then (.ok [], p)
      else
        p.properStmt.attempt.andThen fun s q =>
          q.statementsTail.attempt.andThen fun ss r => (.ok (s :: ss), r) := by
  rw [statementsTail]
  split <;> simp

theorem attempt_properStmt (p : Parser) :
    p.properStmt.attempt =
      match p.kind with
      | .lbrace => p.block.attempt.andThen fun body q => (.ok (.block body), q)
      | .ident => p.assign.attempt
      | .int | .float => p.declare.attempt
      | _ => (.error (p.unexpected "expected a statement"), p) := by
  rw [properStmt]
  cases p.kind
  case lbrace => exact Step.attempt_map Stmt.block p.block
  all_goals rfl

theorem attempt_stmt (p : Parser) :
    p.stmt.attempt = if p.kind = .rbrace then (.ok .empty, p) else p.properStmt.attempt := by
  rw [stmt]
  split <;> simp

/-! ## Programs -/

theorem attempt_param (p : Parser) :
    p.param.attempt =
      p.type.attempt.andThen fun type q =>
        q.name.attempt.andThen fun name r => (.ok ⟨type, name⟩, r) := by
  simp [param]

theorem attempt_paramsTail (p : Parser) :
    p.paramsTail.attempt =
      if p.kind = .comma then
        (p.expect .comma).andThen fun _ q =>
          q.param.attempt.andThen fun first r =>
            r.paramsTail.attempt.andThen fun others s => (.ok (first :: others), s)
      else (.ok [], p) := by
  rw [paramsTail]
  split <;> simp [attempt_need]

theorem attempt_params (p : Parser) :
    p.params.attempt =
      p.param.attempt.andThen fun first q =>
        q.paramsTail.attempt.andThen fun others r => (.ok (first :: others), r) := by
  simp [params]

theorem attempt_program (p : Parser) :
    p.program.attempt =
      if p.kind = .ident ∧ p.current.lexeme = functionKeyword then
        (p.expect .ident).andThen fun _ q =>
          q.name.attempt.andThen fun name r =>
            (r.expect .lparen).andThen fun _ s =>
              s.params.attempt.andThen fun params u =>
                (u.expect .rparen).andThen fun _ v =>
                  v.block.attempt.andThen fun body w => (.ok ⟨name, params, body⟩, w)
      else (.error (p.unexpected "expected `function`"), p) := by
  rw [program]
  split <;> simp [attempt_need]

end Abacus.Parser
