import Abacus.Program.Parser.Lemmas

/-!
# The token stream under a parser

`Cursor.produced` lists the tokens that a cursor hands out before it stops, at the end of the text
or at the first token that cannot be read; `Cursor.tokens` is that list if it stops at the end
(`produced_of_tokens`). `Cursor.next_cases` says what one call of a cursor can do.

`Parser.Moves p us q` says that `p` becomes `q` by advancing over the tokens `us`, none of them the
end. What is left in front of the parser is then `us` longer at `p` than at `q` (`Moves.ahead`,
`Moves.tokensAhead`), and `q` has pulled exactly `us` more (`Moves.pulled`).
-/

namespace Abacus

namespace Cursor

/-- The tokens up to and with the first `eof`, or up to the first that cannot be read. -/
def produced (c : Cursor) : List Token :=
  match h : c.next with
  | (.error _, _) => []
  | (.ok t, c') =>
    if ht : t.kind = .eof then [t]
    else
      have : c'.rest.length < c.rest.length := (next_length h).resolve_right fun heof => ht heof.1
      t :: produced c'
termination_by c.rest.length

variable {c c' : Cursor} {t : Token} {d : Diagnostic}

theorem produced_of_error (h : c.next = (.error d, c')) : c.produced = [] := by
  rw [produced]
  split <;> simp_all

theorem produced_of_eof (h : c.next = (.ok t, c')) (ht : t.kind = .eof) : c.produced = [t] := by
  rw [produced]
  split <;> simp_all

theorem produced_of_ok (h : c.next = (.ok t, c')) (ht : t.kind ≠ .eof) :
    c.produced = t :: c'.produced := by
  rw [produced]
  split <;> simp_all

theorem tokens_of_error (h : c.next = (.error d, c')) : c.tokens = .error d := by
  rw [tokens]
  split <;> simp_all

theorem tokens_of_eof (h : c.next = (.ok t, c')) (ht : t.kind = .eof) : c.tokens = .ok [t] := by
  rw [tokens]
  split <;> simp_all

theorem tokens_of_ok (h : c.next = (.ok t, c')) (ht : t.kind ≠ .eof) :
    c.tokens = c'.tokens.map (t :: ·) := by
  rw [tokens]
  split <;> simp_all

/-- If all tokens can be read, they are the ones handed out. -/
theorem produced_of_tokens {ts : List Token} (h : c.tokens = .ok ts) : c.produced = ts := by
  fun_induction produced c generalizing ts with
  | case1 c d c' hn => rw [tokens_of_error hn] at h; cases h
  | case2 c t c' hn ht =>
    rw [tokens_of_eof hn ht] at h
    cases h
    rfl
  | case3 c t c' hn ht _ ih =>
    rw [tokens_of_ok hn ht] at h
    cases hts : c'.tokens with
    | error d => rw [hts] at h; cases h
    | ok ts' =>
      rw [hts] at h
      cases h
      rw [ih hts]

/-! ## The end of the text -/

theorem markKind?_ne_eof (ch : Char) : markKind? ch ≠ some .eof := by
  unfold markKind?
  split <;> simp

theorem lexeme_kind_ne_eof {ch : Char} {rest chars : List Char} {kind : TokenKind}
    (h : lexeme ch rest = .ok (kind, chars)) : kind ≠ .eof := by
  rintro rfl
  unfold lexeme wordKind numeralKind? at h
  simp only at h
  split at h
  · repeat' split at h
    all_goals simp at h
  · split at h
    · split at h
      · rename_i hk
        repeat' split at hk
        all_goals simp_all
      · simp at h
    · split at h
      · rename_i hk
        simp only [Except.ok.injEq, Prod.mk.injEq] at h
        exact markKind?_ne_eof ch (h.1 ▸ hk)
      · simp at h

theorem lexeme_error_phase {ch : Char} {rest : List Char} {fault : Fault}
    (h : lexeme ch rest = .error fault) : fault.phase = .lexical := by
  unfold lexeme at h
  simp only at h
  repeat' split at h
  all_goals simp only [Except.error.injEq, reduceCtorEq] at h
  all_goals subst h; rfl

/-! ## One step -/

theorem next_of_skipBlanks_nil (h : c.skipBlanks.rest = []) :
    c.next = (.ok (c.skipBlanks.token .eof []), c.skipBlanks) := by
  simp only [next, h]

section Lexeme

variable {ch : Char} {rest chars : List Char} {kind : TokenKind} {fault : Fault}

theorem next_of_skipBlanks_ok (h : c.skipBlanks.rest = ch :: rest)
    (hlex : lexeme ch rest = .ok (kind, chars)) :
    c.next = (.ok (c.skipBlanks.token kind chars), c.skipBlanks.past chars) := by
  simp only [next, h, hlex]

theorem next_of_skipBlanks_error (h : c.skipBlanks.rest = ch :: rest)
    (hlex : lexeme ch rest = .error fault) :
    c.next = (.error ⟨fault, c.skipBlanks.position⟩, c.skipBlanks) := by
  simp only [next, h, hlex]

end Lexeme

/-- **What one call can do**: after the blanks it finds the end, takes a lexeme, or fails and
stays. -/
theorem next_cases (c : Cursor) :
    (c.skipBlanks.rest = [] ∧ c.next = (.ok (c.skipBlanks.token .eof []), c.skipBlanks)) ∨
    (∃ ch rest kind chars, c.skipBlanks.rest = ch :: rest ∧ lexeme ch rest = .ok (kind, chars) ∧
      c.next = (.ok (c.skipBlanks.token kind chars), c.skipBlanks.past chars)) ∨
    ∃ ch rest fault, c.skipBlanks.rest = ch :: rest ∧ lexeme ch rest = .error fault ∧
      c.next = (.error ⟨fault, c.skipBlanks.position⟩, c.skipBlanks) := by
  cases hrest : c.skipBlanks.rest with
  | nil => exact .inl ⟨rfl, next_of_skipBlanks_nil hrest⟩
  | cons ch rest =>
    cases hlex : lexeme ch rest with
    | ok found => exact .inr (.inl ⟨ch, rest, _, _, rfl, hlex, next_of_skipBlanks_ok hrest hlex⟩)
    | error fault =>
      exact .inr (.inr ⟨ch, rest, fault, rfl, hlex, next_of_skipBlanks_error hrest hlex⟩)

theorem of_next_eof (h : c.next = (.ok t, c')) (ht : t.kind = .eof) :
    c.skipBlanks.rest = [] ∧ t = c.skipBlanks.token .eof [] ∧ c' = c.skipBlanks := by
  rcases c.next_cases with ⟨hrest, hn⟩ | ⟨_, _, _, _, -, hlex, hn⟩ | ⟨_, _, _, -, -, hn⟩
  · rw [hn] at h
    cases h
    exact ⟨hrest, rfl, rfl⟩
  · rw [hn] at h
    cases h
    exact absurd ht (lexeme_kind_ne_eof hlex)
  · rw [hn] at h
    cases h

theorem of_next_ok (h : c.next = (.ok t, c')) (ht : t.kind ≠ .eof) :
    ∃ ch rest kind chars, c.skipBlanks.rest = ch :: rest ∧ lexeme ch rest = .ok (kind, chars) ∧
      t = c.skipBlanks.token kind chars ∧ c' = c.skipBlanks.past chars := by
  rcases c.next_cases with ⟨-, hn⟩ | ⟨ch, rest, kind, chars, hrest, hlex, hn⟩ | ⟨_, _, _, -, -, hn⟩
  · rw [hn] at h
    cases h
    exact absurd rfl ht
  · rw [hn] at h
    cases h
    exact ⟨ch, rest, kind, chars, hrest, hlex, rfl, rfl⟩
  · rw [hn] at h
    cases h

theorem of_next_error (h : c.next = (.error d, c')) :
    ∃ ch rest fault, c.skipBlanks.rest = ch :: rest ∧ lexeme ch rest = .error fault ∧
      d = ⟨fault, c.skipBlanks.position⟩ ∧ c' = c.skipBlanks := by
  rcases c.next_cases with ⟨-, hn⟩ | ⟨_, _, _, _, -, -, hn⟩ | ⟨ch, rest, fault, hrest, hlex, hn⟩
  · rw [hn] at h
    cases h
  · rw [hn] at h
    cases h
  · rw [hn] at h
    cases h
    exact ⟨ch, rest, fault, hrest, hlex, rfl, rfl⟩

/-- After `eof` nothing is left. -/
theorem rest_of_next_eof (h : c.next = (.ok t, c')) (ht : t.kind = .eof) : c'.rest = [] := by
  obtain ⟨hrest, -, rfl⟩ := of_next_eof h ht
  exact hrest

/-- The end has no text, and stands where the cursor is left. -/
theorem eq_token_of_next_eof (h : c.next = (.ok t, c')) (ht : t.kind = .eof) :
    t = c'.token .eof [] := by
  obtain ⟨-, rfl, rfl⟩ := of_next_eof h ht
  rfl

/-- Only lexical faults stop a cursor. -/
theorem phase_of_next_error (h : c.next = (.error d, c')) : d.fault.phase = .lexical := by
  obtain ⟨_, _, _, -, hlex, rfl, -⟩ := of_next_error h
  exact lexeme_error_phase hlex

/-- Where nothing is left, the next token is `eof` and the cursor stays. -/
theorem next_of_rest_nil (h : c.rest = []) : c.next = (.ok (c.token .eof []), c) := by
  obtain ⟨file, offset, rest⟩ := c
  subst h
  rfl

end Cursor

namespace Parser

/-! ## Advancing -/

variable {p q r : Parser} {us vs : List Token} {d : Diagnostic}

/-- Advancing gives the current token, and the next one from the cursor becomes current. -/
theorem advance_ok_iff {t : Token} : p.advance = (.ok t, q) ↔
    t = p.current ∧ p.cursor.next = (.ok q.current, q.cursor) ∧
      q.pulled = p.pulled.push q.current := by
  unfold advance
  split <;> rename_i h
  · constructor
    · intro heq
      simp only [Prod.mk.injEq, Except.ok.injEq] at heq
      obtain ⟨rfl, rfl⟩ := heq
      exact ⟨rfl, h, rfl⟩
    · rintro ⟨rfl, hn, hp⟩
      rw [h] at hn
      simp only [Prod.mk.injEq, Except.ok.injEq] at hn
      obtain ⟨rfl, rfl⟩ := hn
      rw [← hp]
  · simp [h]

theorem next_of_advance_error (h : p.advance = (.error d, q)) :
    ∃ c, p.cursor.next = (.error d, c) ∧ q = { p with cursor := c } := by
  unfold advance at h
  split at h <;> rename_i hn
  · simp at h
  · simp only [Prod.mk.injEq, Except.error.injEq] at h
    obtain ⟨rfl, rfl⟩ := h
    exact ⟨_, hn, rfl⟩

/-- `p` becomes `q` by advancing over the tokens `us`, none of them the end. -/
inductive Moves : Parser → List Token → Parser → Prop
  | refl (p : Parser) : Moves p [] p
  | step {p q r : Parser} {us : List Token} (hk : p.kind ≠ .eof)
      (ha : p.advance = (.ok p.current, q)) (hm : Moves q us r) : Moves p (p.current :: us) r

theorem Moves.trans (hpq : Moves p us q) (hqr : Moves q vs r) : Moves p (us ++ vs) r := by
  induction hpq with
  | refl => exact hqr
  | step hk ha _ ih => exact Moves.step hk ha (ih hqr)

/-- Advancing leaves less to read. -/
theorem Moves.remaining_add (h : Moves p us q) : q.remaining + us.length ≤ p.remaining := by
  induction h with
  | refl => exact Nat.le_refl _
  | step hk ha _ ih =>
    have := advance_remaining ha hk
    rw [List.length_cons]
    omega

/-- Induction on what remains to be read. -/
theorem remaining_induction {P : Parser → Prop}
    (fewer : ∀ p, (∀ q : Parser, q.remaining < p.remaining → P q) → P p) (p : Parser) : P p :=
  (measure remaining).wf.induction p fewer

/-- The tokens in front of the parser, the current one first. -/
def ahead (p : Parser) : List Token :=
  if p.kind = .eof then [p.current] else p.current :: p.cursor.produced

/-- The tokens in front of the parser, if they can all be read. -/
def tokensAhead (p : Parser) : Except Diagnostic (List Token) :=
  if p.kind = .eof then .ok [p.current] else p.cursor.tokens.map (p.current :: ·)

theorem ahead_of_next {c : Cursor} (h : c.next = (.ok q.current, q.cursor)) :
    c.produced = q.ahead := by
  unfold ahead
  split <;> rename_i hk
  · exact Cursor.produced_of_eof h hk
  · exact Cursor.produced_of_ok h hk

theorem tokensAhead_of_next {c : Cursor} (h : c.next = (.ok q.current, q.cursor)) :
    c.tokens = q.tokensAhead := by
  unfold tokensAhead
  split <;> rename_i hk
  · exact Cursor.tokens_of_eof h hk
  · exact Cursor.tokens_of_ok h hk

theorem Moves.ahead (h : Moves p us q) : p.ahead = us ++ q.ahead := by
  induction h with
  | refl => rfl
  | step hk ha _ ih =>
    obtain ⟨-, hn, -⟩ := advance_ok_iff.mp ha
    rw [Parser.ahead, if_neg hk, ahead_of_next hn, ih, List.cons_append]

theorem Moves.tokensAhead (h : Moves p us q) :
    p.tokensAhead = q.tokensAhead.map (us ++ ·) := by
  induction h with
  | refl p => cases p.tokensAhead <;> rfl
  | @step p q r us hk ha _ ih =>
    obtain ⟨-, hn, -⟩ := advance_ok_iff.mp ha
    rw [Parser.tokensAhead, if_neg hk, tokensAhead_of_next hn, ih]
    cases r.tokensAhead <;> rfl

/-- What has been pulled ends with the current token, and grows by what was advanced over. -/
theorem Moves.pulled (h : Moves p us q) {before : List Token}
    (hp : p.pulled.toList = before ++ [p.current]) :
    q.pulled.toList = before ++ us ++ [q.current] := by
  induction h generalizing before with
  | refl => simpa using hp
  | @step p q r us _ ha _ ih =>
    obtain ⟨-, -, hpulled⟩ := advance_ok_iff.mp ha
    have hq : q.pulled.toList = (before ++ [p.current]) ++ [q.current] := by
      rw [hpulled, Array.toList_push, hp]
    rw [ih hq]
    simp

/-! ## The end of the text -/

/-- A parser whose current token is the end has nothing left to read. -/
def EndsText (p : Parser) : Prop := p.kind = .eof → p.cursor.rest = []

theorem endsText_of_next {c : Cursor} (h : c.next = (.ok q.current, q.cursor)) : q.EndsText :=
  fun hk => Cursor.rest_of_next_eof h hk

theorem Moves.endsText (h : Moves p us q) (hp : p.EndsText) : q.EndsText := by
  induction h with
  | refl => exact hp
  | step _ ha _ ih => exact ih (endsText_of_next (advance_ok_iff.mp ha).2.1)

/-- Advancing past the end always succeeds. -/
theorem advance_of_eof (hp : p.EndsText) (hk : p.kind = .eof) :
    ∃ q, p.advance = (.ok p.current, q) := by
  rw [advance, Cursor.next_of_rest_nil (hp hk)]
  exact ⟨_, rfl⟩

/-- Past the end there is the end again. -/
theorem current_of_advance_eof {t : Token} (hp : p.EndsText) (hk : p.kind = .eof)
    (ha : p.advance = (.ok t, q)) : q.current = p.cursor.token .eof [] := by
  obtain ⟨-, hn, -⟩ := advance_ok_iff.mp ha
  rw [Cursor.next_of_rest_nil (hp hk)] at hn
  exact (Except.ok.inj (congrArg Prod.fst hn)).symm

/-! ## The first token -/

theorem start_ok_iff {c : Cursor} : start c = .ok p ↔
    c.next = (.ok p.current, p.cursor) ∧ p.pulled = #[p.current] := by
  unfold start
  split <;> rename_i h
  · constructor
    · intro heq
      simp only [Except.ok.injEq] at heq
      subst heq
      exact ⟨h, rfl⟩
    · rintro ⟨hn, hp⟩
      rw [h] at hn
      simp only [Prod.mk.injEq, Except.ok.injEq] at hn
      obtain ⟨rfl, rfl⟩ := hn
      rw [← hp]
  · simp [h]

theorem next_of_start_error {c : Cursor} (h : start c = .error d) :
    ∃ c', c.next = (.error d, c') := by
  unfold start at h
  split at h <;> rename_i hn
  · simp at h
  · simp only [Except.error.injEq] at h
    subst h
    exact ⟨_, hn⟩

end Parser

end Abacus
