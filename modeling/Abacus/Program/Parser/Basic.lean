import Abacus.Token.Cursor

/-!
# Parsers

A parser looks one token ahead: it holds the current token, the cursor after it, and all tokens it
has pulled from the cursor so far. Advancing pulls the next token first, so that a token that cannot
be read leaves the current one in place.

`remaining` counts what is left to read. Advancing past a token other than `eof` makes it smaller
(`advance_remaining`), and a `Step` carries such a bound with its result, so that productions can
call each other and still end.
-/

namespace Abacus

/-- The current token, the cursor after it, and the tokens pulled so far, the current one last. -/
structure Parser where
  cursor : Cursor
  current : Token
  pulled : Array Token

namespace Parser

/-- Reads the first token. -/
def start (c : Cursor) : Except Diagnostic Parser :=
  match c.next with
  | (.ok t, c') => .ok ⟨c', t, #[t]⟩
  | (.error d, _) => .error d

/-- The kind of the current token. -/
def kind (p : Parser) : TokenKind := p.current.kind

/-- The place of the current token. -/
def position (p : Parser) : Position := p.current.span.position

/-- Pulls the next token and gives the one that was current. -/
def advance (p : Parser) : Attempt Diagnostic Parser Token :=
  match p.cursor.next with
  | (.ok t, c) => (.ok p.current, ⟨c, t, p.pulled.push t⟩)
  | (.error d, c) => (.error d, { p with cursor := c })

/-- Advances past a token of the given kind, and fails with `d` at any other. -/
def expectOr (p : Parser) (kind : TokenKind) (d : Diagnostic) : Attempt Diagnostic Parser Token :=
  if p.kind = kind then p.advance else (.error d, p)

/-- The current token is not of the kind that is needed. -/
def mismatch (p : Parser) (kind : TokenKind) : Diagnostic :=
  ⟨.unexpected kind p.kind, p.position⟩

/-- Advances past a token of the given kind. -/
def expect (p : Parser) (kind : TokenKind) : Attempt Diagnostic Parser Token :=
  p.expectOr kind (p.mismatch kind)

/-- The current token cannot stand here; the message says what can. -/
def unexpected (p : Parser) (message : String) : Diagnostic :=
  ⟨.misplaced p.current.label message, p.position⟩

/-! ## Progress -/

/-- How much is left: the characters after the current token, and the token itself unless it is the
end. -/
def remaining (p : Parser) : Nat :=
  p.cursor.rest.length + if p.kind = .eof then 0 else 1

theorem advance_remaining {p q : Parser} {t : Token} (h : p.advance = (.ok t, q))
    (hk : p.kind ≠ .eof) : q.remaining < p.remaining := by
  unfold advance at h
  split at h
  · rename_i t' c hn
    simp only [Prod.mk.injEq, Except.ok.injEq] at h
    obtain ⟨-, rfl⟩ := h
    simp only [remaining, if_neg hk]
    rcases Cursor.next_length hn with hlt | ⟨heof, hle⟩
    · split <;> omega
    · have : (Parser.mk c t' (p.pulled.push t')).kind = .eof := heof
      rw [if_pos this]
      omega
  · simp at h

/-- The outcome of a production: a value with a parser that has less than `n` left, or a failure
with the parser where it arose. -/
inductive Step (n : Nat) (α : Type) where
  | done (value : α) (parser : Parser) (fewer : parser.remaining < n)
  | failed (diagnostic : Diagnostic) (parser : Parser)

namespace Step

variable {n : Nat} {α β : Type}

/-- A value that nothing is read for. -/
def pure (value : α) (p : Parser) : Step (p.remaining + 1) α :=
  done value p (Nat.lt_succ_self p.remaining)

/-- Forgets that something was read. -/
@[inline]
def loosen (s : Step n α) : Step (n + 1) α :=
  match s with
  | done value parser fewer => done value parser (Nat.lt_succ_of_lt fewer)
  | failed diagnostic parser => failed diagnostic parser

/-- Goes on from a value with what may read nothing. -/
@[inline]
def andTail (s : Step n α)
    (f : α → (q : Parser) → q.remaining < n → Step (q.remaining + 1) β) : Step n β :=
  match s with
  | done value parser fewer =>
    match f value parser fewer with
    | done value' parser' fewer' => done value' parser' (Nat.lt_of_lt_of_le fewer' fewer)
    | failed diagnostic parser' => failed diagnostic parser'
  | failed diagnostic parser => failed diagnostic parser

/-- Goes on from a value with what reads something. -/
@[inline]
def andThen (s : Step n α)
    (f : α → (q : Parser) → q.remaining < n → Step q.remaining β) : Step n β :=
  s.andTail fun value parser fewer => (f value parser fewer).loosen

/-- Changes the value. -/
@[inline]
def map (f : α → β) (s : Step n α) : Step n β :=
  s.andTail fun value parser _ => pure (f value) parser

/-- The answer and the parser left, without the bound. -/
def attempt (s : Step n α) : Attempt Diagnostic Parser α :=
  match s with
  | done value parser _ => (.ok value, parser)
  | failed diagnostic parser => (.error diagnostic, parser)

@[simp]
theorem attempt_done (value : α) (parser : Parser) (fewer : parser.remaining < n) :
    (done value parser fewer).attempt = (.ok value, parser) := rfl

@[simp]
theorem attempt_pure (value : α) (p : Parser) : (pure value p).attempt = (.ok value, p) := rfl

@[simp]
theorem attempt_failed (diagnostic : Diagnostic) (parser : Parser) :
    (failed diagnostic parser : Step n α).attempt = (.error diagnostic, parser) := rfl

@[simp]
theorem attempt_loosen (s : Step n α) : s.loosen.attempt = s.attempt := by
  cases s <;> rfl

@[simp]
theorem attempt_andTail (s : Step n α) (f : α → (q : Parser) → Step (q.remaining + 1) β) :
    (s.andTail fun a q _ => f a q).attempt = s.attempt.andThen fun a q => (f a q).attempt := by
  cases s with
  | done value parser fewer =>
    simp only [andTail, attempt_done, Attempt.andThen_ok]
    split <;> rename_i h <;> simp [h]
  | failed diagnostic parser => rfl

@[simp]
theorem attempt_andThen (s : Step n α) (f : α → (q : Parser) → Step q.remaining β) :
    (s.andThen fun a q _ => f a q).attempt = s.attempt.andThen fun a q => (f a q).attempt := by
  simp [andThen]

@[simp]
theorem attempt_map (f : α → β) (s : Step n α) :
    (s.map f).attempt = s.attempt.andThen fun a q => (.ok (f a), q) := by
  simp [map]

end Step

/-- Advances past a token that is not the end. -/
def take (p : Parser) (hk : p.kind ≠ .eof) : Step p.remaining Token :=
  match h : p.advance with
  | (.ok t, q) => .done t q (advance_remaining h hk)
  | (.error d, q) => .failed d q

/-- Advances past a token of the given kind; there is no advancing past the end. -/
def need (p : Parser) (kind : TokenKind) : Step p.remaining Token :=
  if h : p.kind = kind ∧ p.kind ≠ .eof then p.take h.2 else .failed (p.mismatch kind) p

theorem attempt_take (p : Parser) (hk : p.kind ≠ .eof) : (p.take hk).attempt = p.advance := by
  unfold take
  split <;> rename_i h <;> simp [h]

theorem attempt_need (p : Parser) {kind : TokenKind} (hk : kind ≠ .eof) :
    (p.need kind).attempt = p.expect kind := by
  unfold need expect expectOr
  by_cases h : p.kind = kind
  · rw [dif_pos ⟨h, h ▸ hk⟩, if_pos h]
    exact p.attempt_take _
  · rw [dif_neg fun h' => h h'.1, if_neg h]
    rfl

end Parser

end Abacus
