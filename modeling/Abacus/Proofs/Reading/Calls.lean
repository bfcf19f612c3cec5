import Abacus.Proofs.Lexing.Watching
import Abacus.Proofs.Reading.Lockstep

/-!
# Calls on a parser

A parser can be called from outside: to advance, to expect a kind, or to read a nonterminal. A call
may fail, and the parser it leaves can be called again.

`Advances p us q` says that `p` becomes `q` by advancing, and which tokens `us` it has consumed on
the way. Every call advances and does nothing else to the parser (`exists_advances`), so what
holds along `Advances` holds after any calls:

* `InStep` — what was consumed and the current token are the first tokens of the text, each once and
  in order, and a watched lexer has recorded exactly these.
* `Call.perform_of_not_admits`, `Call.perform_of_unread` — a call that its first look at the current
  token stops changes nothing; one that a token stops which cannot be read leaves the current token
  in place, and fails in the same way when it is repeated.

`inStep_after_calls` puts them together.
-/

namespace Abacus

namespace Parser

variable {p q r : Parser} {us vs : List Token} {t : Token} {d : Diagnostic}

/-! ## Calls -/

/-- What can be called on a parser. -/
inductive Call where
  | advance
  | expect (kind : TokenKind)
  | expectOr (kind : TokenKind) (d : Diagnostic)
  | production (f : Production)

/-- Performs a call; what it reads is not kept. -/
def Call.perform (p : Parser) : Call → Attempt Diagnostic Parser Unit
  | advance => p.advance.void
  | expect kind => (p.expect kind).void
  | expectOr kind d => (p.expectOr kind d).void
  | production f => f.call p

/-- The parser after some calls in a row, each of which may fail. -/
def after (p : Parser) (calls : List Call) : Parser :=
  calls.foldl (fun p call => (call.perform p).2) p

/-- `p` becomes `q` by advancing, and consumes the tokens `us`. An advance that fails consumes
nothing. -/
inductive Advances (p : Parser) : List Token → Parser → Prop
  | refl : Advances p [] p
  | took {us : List Token} {q r : Parser} {t : Token} (h : Advances p us q)
      (ha : q.advance = (.ok t, r)) : Advances p (us ++ [t]) r
  | stayed {us : List Token} {q r : Parser} {d : Diagnostic} (h : Advances p us q)
      (ha : q.advance = (.error d, r)) : Advances p us r

theorem kept_advances (p : Parser) : Kept fun q => ∃ us, Advances p us q := by
  rintro q ⟨us, h⟩
  rcases ha : q.advance with ⟨d | t, r⟩
  · exact ⟨us, h.stayed ha⟩
  · exact ⟨us ++ [t], h.took ha⟩

theorem Kept.expectOr {P : Parser → Prop} (hP : Kept P) (h : P p) (kind : TokenKind)
    (d : Diagnostic) : P (p.expectOr kind d).2 := by
  unfold Parser.expectOr
  split
  · exact hP p h
  · exact h

/-- **What advancing keeps, every call keeps.** -/
theorem Kept.perform {P : Parser → Prop} (hP : Kept P) (call : Call) (h : P p) :
    P (call.perform p).2 := by
  cases call with
  | advance =>
    rw [Call.perform, Attempt.snd_void]
    exact hP p h
  | expect kind =>
    rw [Call.perform, Attempt.snd_void]
    exact hP.expectOr h kind _
  | expectOr kind d =>
    rw [Call.perform, Attempt.snd_void]
    exact hP.expectOr h kind d
  | production f => exact hP.production f h

theorem Kept.after {P : Parser → Prop} (hP : Kept P) (calls : List Call) (h : P p) :
    P (p.after calls) := by
  induction calls generalizing p with
  | nil => exact h
  | cons call calls ih => exact ih (hP.perform call h)

theorem exists_advances (p : Parser) (calls : List Call) : ∃ us, Advances p us (p.after calls) :=
  (kept_advances p).after calls ⟨[], .refl⟩

/-! ## Tokens of the text -/

/-- **Parser, text and lexer are in step** after the tokens `us` were consumed. -/
structure InStep (text : String) (file : Option String) (label : String) (us : List Token)
    (q : Parser) : Prop where
  /-- The tokens consumed are those that a lexer of the text hands out first. -/
  consumed : ∀ i t, us[i]? = some t → (Lexer.ofText text file).answer? i = some (.ok t)
  /-- The current token is the one after them. -/
  current : (Lexer.ofText text file).answer? us.length = some (.ok q.current)
  /-- These have been pulled, and no other. -/
  pulled : q.pulled.toList = us ++ [q.current]
  /-- The lexer of the parser has recorded the same tokens if it was watched from the start. -/
  watched : ∃ l, ((Lexer.ofText text file).watch label).Pulls (us ++ [q.current]) l ∧
    l.cursor? = some q.cursor ∧ l.observed.toList = (us ++ [q.current]).map (label, ·)

/-- What advancing keeps of a parser over a text that starts at `c`: the tokens consumed and the
current one come first, and the cursor goes on as if it had just read them. -/
structure Tracks (c : Cursor) (us : List Token) (q : Parser) : Prop where
  answers : ∀ i t, (us ++ [q.current])[i]? = some t → (c.after i).next.1 = .ok t
  pulled : q.pulled.toList = us ++ [q.current]
  next : q.cursor.next = (c.after (us.length + 1)).next

theorem tracks_start {c : Cursor} (hs : start c = .ok p) : Tracks c [] p := by
  obtain ⟨hn, hp⟩ := start_ok_iff.mp hs
  refine ⟨fun i t hi => ?_, by rw [hp]; rfl, ?_⟩
  · cases i with
    | zero =>
      cases hi
      exact congrArg Prod.fst hn
    | succ i => cases hi
  · show p.cursor.next = c.next.2.next
    rw [hn]

theorem Tracks.took {c : Cursor} (h : Tracks c us q) (ha : q.advance = (.ok t, r)) :
    Tracks c (us ++ [t]) r := by
  obtain ⟨rfl, hn, hpulled⟩ := advance_ok_iff.mp ha
  have hnext : (c.after (us.length + 1)).next = (.ok r.current, r.cursor) := h.next.symm.trans hn
  refine ⟨fun i t hi => ?_, ?_, ?_⟩
  · by_cases hlt : i < (us ++ [q.current]).length
    · rw [List.getElem?_append_left hlt] at hi
      exact h.answers i t hi
    · -- the last of them is the token that has just become current
      rw [List.getElem?_append_right (by omega)] at hi
      obtain ⟨hi', rfl⟩ := List.getElem?_eq_some_iff.mp hi
      rw [List.length_singleton] at hi'
      have hlast : i = us.length + 1 := by simp at hlt hi'; omega
      subst hlast
      rw [hnext, List.getElem_singleton]
  · rw [hpulled, Array.toList_push, h.pulled]
  · rw [List.length_append, List.length_singleton, Cursor.after_succ, hnext]

theorem Tracks.stayed {c : Cursor} (h : Tracks c us q) (ha : q.advance = (.error d, r)) :
    Tracks c us r := by
  obtain ⟨c', hn, rfl⟩ := next_of_advance_error ha
  refine ⟨h.answers, h.pulled, ?_⟩
  show c'.next = _
  rw [Cursor.next_of_next_error hn, ← hn]
  exact h.next

theorem Advances.tracks {c : Cursor} (hs : start c = .ok p) (h : Advances p us q) :
    Tracks c us q := by
  induction h with
  | refl => exact tracks_start hs
  | took _ ha ih => exact ih.took ha
  | stayed _ ha ih => exact ih.stayed ha

/-- A parser pulls its tokens from a lexer. -/
theorem Advances.pulls {c : Cursor} {l : Lexer} (hl : l.At c) (hs : start c = .ok p)
    (h : Advances p us q) : ∃ l', l.Pulls (us ++ [q.current]) l' ∧ l'.At q.cursor := by
  induction h with
  | refl =>
    obtain ⟨hn, -⟩ := start_ok_iff.mp hs
    obtain ⟨l', hnext, hat⟩ := hl.next
    rw [hn] at hnext hat
    exact ⟨l', .took .refl hnext, hat⟩
  | @took us q r t _ ha ih =>
    obtain ⟨rfl, hn, -⟩ := advance_ok_iff.mp ha
    obtain ⟨l', hpulls, hat⟩ := ih
    obtain ⟨l'', hnext, hat'⟩ := hat.next
    rw [hn] at hnext hat'
    exact ⟨l'', hpulls.took hnext, hat'⟩
  | @stayed us q r d _ ha ih =>
    obtain ⟨c', hn, rfl⟩ := next_of_advance_error ha
    obtain ⟨l', hpulls, hat⟩ := ih
    obtain ⟨l'', hnext, hat'⟩ := hat.next
    rw [hn] at hnext hat'
    exact ⟨l'', hpulls.stayed hnext, hat'⟩

theorem Advances.inStep {text : String} {file : Option String}
    (hs : start (.ofText text file) = .ok p) (h : Advances p us q) (label : String) :
    InStep text file label us q := by
  have htracks := h.tracks hs
  have hat := Lexer.at_ofText text file
  have hanswer : ∀ i t, (us ++ [q.current])[i]? = some t →
      (Lexer.ofText text file).answer? i = some (.ok t) := by
    intro i t hi
    rw [hat.answer?, htracks.answers i t hi]
  refine ⟨fun i t hi => hanswer i t ?_, hanswer _ _ (by simp), htracks.pulled, ?_⟩
  · rw [List.getElem?_append_left (List.getElem?_eq_some_iff.mp hi).1, hi]
  · obtain ⟨l, hpulls, hl⟩ := h.pulls (hat.watch label) hs
    exact ⟨l, hpulls, hl.cursor?, (hpulls.observed rfl).1⟩

/-- The tokens consumed on the way are determined by where it ends. -/
theorem Advances.unique {c : Cursor} (hs : start c = .ok p) (h : Advances p us q)
    (h' : Advances p vs q) : us = vs :=
  List.append_cancel_right ((h.tracks hs).pulled.symm.trans (h'.tracks hs).pulled)

/-! ## The first look -/

/-- The attempt starts with a look at the current token: if the condition holds it goes on by
advancing, and if not it fails and leaves the parser as it is. -/
inductive Looks {α : Type} (C : Prop) (p : Parser) (a : Attempt Diagnostic Parser α) : Prop
  | goesOn (hC : C) (f : Token → Parser → Attempt Diagnostic Parser α)
      (ha : a = p.advance.andThen f)
  | stops (hC : ¬ C) (d : Diagnostic) (ha : a = (.error d, p))

section Looks

variable {α β : Type} {C D : Prop} {a : Attempt Diagnostic Parser α}

theorem Looks.andThen (h : Looks C p a) (f : α → Parser → Attempt Diagnostic Parser β) :
    Looks C p (a.andThen f) := by
  cases h with
  | goesOn hC g ha => exact .goesOn hC _ (by rw [ha, Attempt.andThen_assoc])
  | stops hC d ha => exact .stops hC d (by rw [ha, Attempt.andThen_error])

theorem Looks.congr (h : Looks C p a) (hCD : C ↔ D) : Looks D p a := by
  cases h with
  | goesOn hC f ha => exact .goesOn (hCD.mp hC) f ha
  | stops hC d ha => exact .stops (fun hD => hC (hCD.mpr hD)) d ha

theorem looks_expectOr (p : Parser) (k : TokenKind) (d : Diagnostic) :
    Looks (p.kind = k) p (p.expectOr k d) := by
  unfold expectOr
  by_cases hk : p.kind = k
  · rw [if_pos hk]
    refine .goesOn hk (fun t q => (.ok t, q)) ?_
    obtain ⟨_ | _, q⟩ := p.advance <;> rfl
  · rw [if_neg hk]
    exact .stops hk d rfl

theorem looks_expect (p : Parser) (k : TokenKind) : Looks (p.kind = k) p (p.expect k) :=
  looks_expectOr p k _

theorem looks_type (p : Parser) : Looks (p.kind ∈ [.int, .float]) p p.type.attempt := by
  rw [attempt_type]
  have hkind : p.kind.numType?.isSome ↔ p.kind ∈ [.int, .float] := by
    cases p.kind <;> simp [TokenKind.numType?]
  refine Looks.congr ?_ hkind
  cases p.kind.numType? with
  | some type => exact .goesOn rfl _ rfl
  | none => exact .stops Bool.false_ne_true _ rfl

theorem looks_name (p : Parser) : Looks (p.kind = .ident) p p.name.attempt := by
  rw [attempt_name]
  exact (looks_expect p .ident).andThen _

theorem looks_grouping (p : Parser) : Looks (p.kind = .lparen) p p.grouping.attempt := by
  rw [attempt_grouping]
  exact (looks_expect p .lparen).andThen _

/-- The kinds of token that a factor starts with. -/
def opensFactor : List TokenKind := [.add, .sub, .intConst, .floatConst, .lparen, .ident]

theorem looks_factor (p : Parser) : Looks (p.kind ∈ opensFactor) p p.factor.attempt := by
  rw [attempt_factor]
  cases hs : p.kind.sign? with
  | some op =>
    refine .goesOn ?_ _ rfl
    rw [TokenKind.sign?_eq_some.mp hs]
    cases op <;> decide
  | none =>
  cases hl : p.kind.literal? with
  | some type =>
    refine .goesOn ?_ _ rfl
    rw [TokenKind.literal?_eq_some.mp hl]
    cases type <;> decide
  | none =>
  by_cases hk : p.kind = .lparen
  · simp only [if_pos hk]
    exact (looks_grouping p).congr (by simp [hk, opensFactor])
  · simp only [if_neg hk]
    refine ((looks_name p).andThen _).congr ?_
    cases hp : p.kind <;> simp_all [TokenKind.sign?, TokenKind.literal?, opensFactor]

theorem looks_term (p : Parser) : Looks (p.kind ∈ opensFactor) p p.term.attempt := by
  rw [attempt_term]
  exact (looks_factor p).andThen _

theorem looks_expr (p : Parser) : Looks (p.kind ∈ opensFactor) p p.expr.attempt := by
  rw [attempt_expr]
  exact (looks_term p).andThen _

theorem looks_declare (p : Parser) : Looks (p.kind ∈ [.int, .float]) p p.declare.attempt := by
  rw [attempt_declare]
  exact (looks_type p).andThen _

theorem looks_assign (p : Parser) : Looks (p.kind = .ident) p p.assign.attempt := by
  rw [attempt_assign]
  exact (looks_name p).andThen _

theorem looks_block (p : Parser) : Looks (p.kind = .lbrace) p p.block.attempt := by
  rw [attempt_block]
  exact (looks_expect p .lbrace).andThen _

theorem looks_properStmt (p : Parser) :
    Looks (p.kind ∈ [.int, .float, .ident, .lbrace]) p p.properStmt.attempt := by
  rw [attempt_properStmt]
  split
  case h_1 hk => exact ((looks_block p).andThen _).congr (by simp [hk])
  case h_2 hk => exact (looks_assign p).congr (by simp [hk])
  case h_3 hk => exact (looks_declare p).congr (by simp [hk])
  case h_4 hk => exact (looks_declare p).congr (by simp [hk])
  case h_5 h₁ h₂ h₃ h₄ => exact .stops (by simpa using ⟨h₃, h₄, h₂, h₁⟩) _ rfl

theorem looks_stmt (hk : p.kind ≠ .rbrace) :
    Looks (p.kind ∈ [.int, .float, .ident, .lbrace, .rbrace]) p p.stmt.attempt := by
  rw [attempt_stmt, if_neg hk]
  exact (looks_properStmt p).congr (by simp [hk])

theorem looks_statements (hk : p.kind ≠ .rbrace) :
    Looks (p.kind ∈ [.int, .float, .ident, .lbrace, .rbrace]) p p.statements.attempt := by
  rw [attempt_statements, if_neg hk, attempt_statementsTail, if_neg hk]
  exact ((looks_properStmt p).andThen _).congr (by simp [hk])

theorem looks_param (p : Parser) : Looks (p.kind ∈ [.int, .float]) p p.param.attempt := by
  rw [attempt_param]
  exact (looks_type p).andThen _

theorem looks_params (p : Parser) : Looks (p.kind ∈ [.int, .float]) p p.params.attempt := by
  rw [attempt_params]
  exact (looks_param p).andThen _

theorem looks_program (p : Parser) :
    Looks (p.kind = .ident ∧ p.current.lexeme = functionKeyword) p p.program.attempt := by
  rw [attempt_program]
  by_cases h : p.kind = .ident ∧ p.current.lexeme = functionKeyword
  · rw [if_pos h]
    exact ((looks_expect p .ident).andThen _).congr (by simp [h])
  · rw [if_neg h]
    exact .stops h _ rfl

end Looks

/-- What a call lets through when it first looks at the current token. -/
def Call.Admits (t : Token) : Call → Prop
  | advance => True
  | expect kind => t.kind = kind
  | expectOr kind _ => t.kind = kind
  | production .program => t.kind = .ident ∧ t.lexeme = functionKeyword
  | production .params | production .param | production .declare | production .type =>
    t.kind ∈ [.int, .float]
  | production .block => t.kind = .lbrace
  | production .statements | production .stmt => t.kind ∈ [.int, .float, .ident, .lbrace, .rbrace]
  | production .assign | production .name => t.kind = .ident
  | production .expr | production .term | production .factor => t.kind ∈ opensFactor
  | production .grouping => t.kind = .lparen

/-- **Every call starts with a look at the current token.** Only statements are read without
advancing, where there are none before a closing brace. -/
theorem Call.looks (call : Call) (p : Parser) :
    Looks (call.Admits p.current) p (call.perform p) ∨
      p.kind = .rbrace ∧ call.Admits p.current ∧ call.perform p = (.ok (), p) := by
  cases call with
  | advance => exact .inl (.goesOn trivial _ rfl)
  | expect kind => exact .inl ((looks_expect p kind).andThen _)
  | expectOr kind d => exact .inl ((looks_expectOr p kind d).andThen _)
  | production f =>
  cases f with
  | program => exact .inl ((looks_program p).andThen _)
  | params => exact .inl ((looks_params p).andThen _)
  | param => exact .inl ((looks_param p).andThen _)
  | block => exact .inl ((looks_block p).andThen _)
  | declare => exact .inl ((looks_declare p).andThen _)
  | assign => exact .inl ((looks_assign p).andThen _)
  | expr => exact .inl ((looks_expr p).andThen _)
  | term => exact .inl ((looks_term p).andThen _)
  | factor => exact .inl ((looks_factor p).andThen _)
  | grouping => exact .inl ((looks_grouping p).andThen _)
  | name => exact .inl ((looks_name p).andThen _)
  | type => exact .inl ((looks_type p).andThen _)
  | stmt =>
    by_cases hk : p.kind = .rbrace
    · refine .inr ⟨hk, ?_, ?_⟩
      · rw [Admits, show p.current.kind = .rbrace from hk]
        decide
      · rw [perform, Production.call, attempt_stmt, if_pos hk, Attempt.void_ok]
    · exact .inl ((looks_stmt hk).andThen _)
  | statements =>
    by_cases hk : p.kind = .rbrace
    · refine .inr ⟨hk, ?_, ?_⟩
      · rw [Admits, show p.current.kind = .rbrace from hk]
        decide
      · rw [perform, Production.call, attempt_statements, if_pos hk, Attempt.void_ok]
    · exact .inl ((looks_statements hk).andThen _)

/-- A call that the first look stops changes nothing. -/
theorem Call.perform_of_not_admits {call : Call} (h : ¬ call.Admits p.current) :
    ∃ d, call.perform p = (.error d, p) := by
  rcases call.looks p with hlooks | ⟨-, hadmits, -⟩
  · cases hlooks with
    | goesOn hadmits => exact absurd hadmits h
    | stops _ d ha => exact ⟨d, ha⟩
  · exact absurd hadmits h

/-- A call that the first look lets through fails if the next token cannot be read. -/
theorem Call.perform_of_unread {call : Call} (h : call.Admits p.current)
    (hn : p.advance = (.error d, q)) :
    call.perform p = (.error d, q) ∨ p.kind = .rbrace ∧ call.perform p = (.ok (), p) := by
  rcases call.looks p with hlooks | ⟨hk, -, hperform⟩
  · cases hlooks with
    | goesOn _ f ha => exact .inl (by rw [ha, hn, Attempt.andThen_error])
    | stops hnot => exact absurd h hnot
  · exact .inr ⟨hk, hperform⟩

/-! ## Tokens that cannot be read -/

/-- The calls that take one token. -/
def Call.TakesOne : Call → Prop
  | production _ => False
  | _ => True

theorem Call.perform_of_takesOne {call : Call} (hone : call.TakesOne) (h : call.Admits p.current) :
    call.perform p = p.advance.void := by
  cases call with
  | advance => rfl
  | expect kind => rw [perform, Parser.expect, Parser.expectOr, if_pos (show p.kind = kind from h)]
  | expectOr kind d => rw [perform, Parser.expectOr, if_pos (show p.kind = kind from h)]
  | production f => exact absurd hone id

theorem advance_of_advance_error (h : p.advance = (.error d, q)) :
    q.advance = (.error d, q) ∧ q.current = p.current ∧ q.pulled = p.pulled := by
  obtain ⟨c, hn, rfl⟩ := next_of_advance_error h
  refine ⟨?_, rfl, rfl⟩
  rw [advance, Cursor.next_of_next_error hn]

/-- **A failure repeats**: the current token stays, and the call fails in the same way. -/
theorem Call.perform_again {call : Call} (hone : call.TakesOne) (h : call.Admits p.current)
    (hperform : call.perform p = (.error d, q)) :
    p.advance = (.error d, q) ∧ q.current = p.current ∧ q.pulled = p.pulled ∧
      ∀ n, call.perform (q.after (List.replicate n call)) = (.error d, q) := by
  have hadvance : p.advance = (.error d, q) := by
    rw [perform_of_takesOne hone h] at hperform
    rcases ha : p.advance with ⟨_ | _, r⟩
    · rw [ha] at hperform
      cases hperform
      rfl
    · rw [ha] at hperform
      cases hperform
  obtain ⟨hq, hcurrent, hpulled⟩ := advance_of_advance_error hadvance
  have hagain : call.perform q = (.error d, q) := by
    rw [perform_of_takesOne hone (hcurrent.symm ▸ h), hq, Attempt.void_error]
  have hstays : ∀ n, q.after (List.replicate n call) = q := by
    intro n
    induction n with
    | zero => rfl
    | succ n ih =>
      rw [List.replicate_succ]
      show (call.perform q).2.after (List.replicate n call) = q
      rw [hagain]
      exact ih
  exact ⟨hadvance, hcurrent, hpulled, fun n => by rw [hstays n, hagain]⟩

/-- **How calls fail** that consume nothing. -/
structure FailsInPlace (q : Parser) : Prop where
  /-- A call that the first look stops leaves the parser and its cursor as they were. -/
  stopped : ∀ call : Call, ¬ call.Admits q.current → ∃ d, call.perform q = (.error d, q)
  /-- What the first look lets through goes on to the next token, statements before a closing brace
  apart, and fails if it cannot be read. -/
  unread : ∀ (call : Call) (d : Diagnostic) (r : Parser), call.Admits q.current →
    q.advance = (.error d, r) →
      call.perform q = (.error d, r) ∨ q.kind = .rbrace ∧ call.perform q = (.ok (), q)
  /-- A call for one token that fails then leaves the current token in place and fails in the same
  way every time. -/
  again : ∀ (call : Call) (d : Diagnostic) (r : Parser), call.TakesOne → call.Admits q.current →
    call.perform q = (.error d, r) →
      q.cursor.next = (.error d, r.cursor) ∧ r.current = q.current ∧ r.pulled = q.pulled ∧
        ∀ n, call.perform (r.after (List.replicate n call)) = (.error d, r)

theorem failsInPlace (q : Parser) : q.FailsInPlace where
  stopped _ h := Call.perform_of_not_admits h
  unread _ _ _ h hn := Call.perform_of_unread h hn
  again call d r hone h hperform := by
    obtain ⟨hadvance, hcurrent, hpulled, hn⟩ := Call.perform_again hone h hperform
    obtain ⟨c, hnext, rfl⟩ := next_of_advance_error hadvance
    exact ⟨hnext, hcurrent, hpulled, hn⟩

/-- **A parser neither skips nor repeats a token**, whatever is called on it: after any calls, what
it has consumed and its current token are the first tokens of the text, and a watcher has seen these
once each and in order. A call that consumes nothing fails in place. -/
theorem inStep_after_calls {text : String} {file : Option String}
    (hs : start (.ofText text file) = .ok p) (label : String) (calls : List Call) :
    (∃ us, (∀ vs, Advances p vs (p.after calls) ↔ vs = us) ∧
      InStep text file label us (p.after calls)) ∧
    FailsInPlace (p.after calls) := by
  obtain ⟨us, h⟩ := exists_advances p calls
  refine ⟨⟨us, fun vs => ⟨fun h' => h'.unique hs h, fun heq => heq ▸ h⟩, h.inStep hs label⟩, ?_⟩
  exact failsInPlace _

/-- A declaration stops before a character that cannot be read, and so does every further call. -/
theorem inStep_after_calls_unread :
    ∃ p us, start (.ofText "int x; $" none) = .ok p ∧
      InStep "int x; $" none "trace" us (p.after [.production .declare, .advance]) ∧
      terminals us = [⟨.int, "int"⟩, ⟨.ident, "x"⟩] ∧
      FailsInPlace (p.after [.production .declare, .advance]) := by
  have hs : start (.ofText "int x; $" none) =
      .ok ⟨⟨"shell", 3, " x; $".toList⟩, ⟨.int, "int", ⟨0, 3, "shell"⟩⟩,
        #[⟨.int, "int", ⟨0, 3, "shell"⟩⟩]⟩ := by rfl
  obtain ⟨⟨us, -, hstep⟩, hfails⟩ := inStep_after_calls hs "trace" [.production .declare, .advance]
  refine ⟨_, us, hs, hstep, ?_, hfails⟩
  have hpulled := congrArg (List.map Token.terminal) hstep.pulled
  rw [List.map_append] at hpulled
  have hall : _ = ([⟨.int, "int"⟩, ⟨.ident, "x"⟩] ++ [⟨.semi, ";"⟩] : List Terminal) :=
    hpulled.symm.trans (by decide +kernel)
  exact (List.append_inj' hall rfl).1

end Parser

end Abacus
