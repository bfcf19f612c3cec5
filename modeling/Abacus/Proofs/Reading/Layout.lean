import Abacus.Proofs.Reading.Exactness
import Abacus.Proofs.Reading.Lockstep
import Abacus.Run

/-!
# Layout does not matter

Blanks, line breaks and the name of the file change where the tokens of a text stand, and nothing
else. Two parsers are `Alike` if all their tokens can be read and are the same but for their places,
and they have pulled as many. They go in lockstep (`alike_lockstep`), so two texts with the same
terminals are read alike (`parseFrom_alike`): as the same program, or up to the same token, with the
same fault. That the fault is placed at this token is a fact about one run
(`failsAt_of_parse_error`).
-/

namespace Abacus

namespace Parser

variable {p q : Parser} {ts us : List Token}

/-- All tokens in front of the two parsers can be read and are the same but for their places. -/
structure Alike (p q : Parser) : Prop where
  ahead : ∃ ts us, p.tokensAhead = .ok ts ∧ q.tokensAhead = .ok us ∧ terminals ts = terminals us
  pulled : p.pulled.size = q.pulled.size
  left : p.EndsText
  right : q.EndsText

/-- Before the end, the cursor goes on with the tokens after the current one. -/
theorem tokens_of_tokensAhead (hk : p.kind ≠ .eof) (h : p.tokensAhead = .ok ts) :
    ∃ rest, p.cursor.tokens = .ok rest ∧ ts = p.current :: rest := by
  rw [tokensAhead, if_neg hk] at h
  cases hc : p.cursor.tokens with
  | error d => rw [hc] at h; cases h
  | ok rest =>
    rw [hc] at h
    cases h
    exact ⟨rest, rfl, rfl⟩

/-- The current token comes first. -/
theorem exists_tokensAhead_eq_cons (h : p.tokensAhead = .ok ts) :
    ∃ rest, ts = p.current :: rest := by
  by_cases hk : p.kind = .eof
  · rw [tokensAhead, if_pos hk] at h
    cases h
    exact ⟨[], rfl⟩
  · obtain ⟨rest, -, hts⟩ := tokens_of_tokensAhead hk h
    exact ⟨rest, hts⟩

theorem size_pulled_of_advance {t : Token} (h : p.advance = (.ok t, q)) :
    q.pulled.size = p.pulled.size + 1 := by
  rw [(advance_ok_iff.mp h).2.2, Array.size_push]

/-- At the end, advancing goes on to the end again. -/
theorem advance_at_end (hk : p.kind = .eof) (hp : p.EndsText) :
    ∃ p' t, p.advance = (.ok p.current, p') ∧ p'.EndsText ∧ p'.tokensAhead = .ok [t] ∧
      t.terminal = ⟨.eof, ""⟩ := by
  obtain ⟨p', ha⟩ := advance_of_eof hp hk
  obtain ⟨-, hn, -⟩ := advance_ok_iff.mp ha
  have hcurrent := current_of_advance_eof hp hk ha
  have hk' : p'.kind = .eof := congrArg Token.kind hcurrent
  refine ⟨p', p'.current, ha, endsText_of_next hn, if_pos hk', ?_⟩
  rw [hcurrent]
  rfl

/-- If all tokens can be read, advancing goes on to the next. -/
theorem advance_before_end (hk : p.kind ≠ .eof) (h : p.tokensAhead = .ok ts) :
    ∃ p' rest, p.advance = (.ok p.current, p') ∧ p'.EndsText ∧ p'.tokensAhead = .ok rest ∧
      ts = p.current :: rest := by
  obtain ⟨rest, hrest, hts⟩ := tokens_of_tokensAhead hk h
  rcases ha : p.advance with ⟨d | t, p'⟩
  · obtain ⟨c, hn, -⟩ := next_of_advance_error ha
    rw [Cursor.tokens_of_error hn] at hrest
    cases hrest
  · obtain ⟨rfl, hn, -⟩ := advance_ok_iff.mp ha
    exact ⟨p', rest, rfl, endsText_of_next hn, (tokensAhead_of_next hn).symm.trans hrest, hts⟩

namespace Alike

theorem current (h : Alike p q) : SameText p.current q.current := by
  obtain ⟨ts, us, hts, hus, hsame⟩ := h.ahead
  obtain ⟨ts', rfl⟩ := exists_tokensAhead_eq_cons hts
  obtain ⟨us', rfl⟩ := exists_tokensAhead_eq_cons hus
  exact (List.cons.inj hsame).1

/-- **Parsers that are alike advance to parsers that are alike.** -/
theorem advance (h : Alike p q) : ∃ p' q', p.advance = (.ok p.current, p') ∧
    q.advance = (.ok q.current, q') ∧ Alike p' q' := by
  have hkind : p.kind = q.kind := congrArg Terminal.kind h.current
  obtain ⟨ts, us, hts, hus, hsame⟩ := h.ahead
  by_cases hk : p.kind = .eof
  · obtain ⟨p', t, hp, hpends, hpahead, ht⟩ := advance_at_end hk h.left
    obtain ⟨q', u, hq, hqends, hqahead, hu⟩ := advance_at_end (hkind ▸ hk) h.right
    refine ⟨p', q', hp, hq, ⟨[t], [u], hpahead, hqahead, ?_⟩, ?_, hpends, hqends⟩
    · simp only [terminals, List.map_cons, List.map_nil, ht, hu]
    · rw [size_pulled_of_advance hp, size_pulled_of_advance hq, h.pulled]
  · obtain ⟨p', ts', hp, hpends, hpahead, rfl⟩ := advance_before_end hk hts
    obtain ⟨q', us', hq, hqends, hqahead, rfl⟩ := advance_before_end (hkind ▸ hk) hus
    refine ⟨p', q', hp, hq, ⟨ts', us', hpahead, hqahead, (List.cons.inj hsame).2⟩, ?_, hpends,
      hqends⟩
    rw [size_pulled_of_advance hp, size_pulled_of_advance hq, h.pulled]

end Alike

theorem alike_lockstep : Lockstep Alike where
  current _ _ h := h.current
  advance p q h := by
    obtain ⟨p', q', hp, hq, h'⟩ := h.advance
    rw [hp, hq]
    exact .ok h.current h'

/-- Whole programs, with the end of the text. -/
theorem Alike.whole (h : Alike p q) : Agree Alike Eq
    (p.program.attempt.andThen fun program p' =>
      (p'.expect .eof).andThen fun _ r => (.ok program, r))
    (q.program.attempt.andThen fun program q' =>
      (q'.expect .eof).andThen fun _ r => (.ok program, r)) := by
  refine (alike_lockstep.program h).andThen fun program _ p' q' _ heq h' => ?_
  exact (alike_lockstep.expect h' .eof).andThen fun _ _ _ _ _ _ hr => .ok heq hr

/-- Two answers of reading: the same program, or the same fault after as many tokens. -/
inductive SameReading : Attempt Diagnostic (Array Token) Program →
    Attempt Diagnostic (Array Token) Program → Prop
  | accepted {p : Program} {ts us : Array Token} : SameReading (.ok p, ts) (.ok p, us)
  | failed {d e : Diagnostic} {ts us : Array Token} (hfault : d.fault = e.fault)
      (hsize : ts.size = us.size) : SameReading (.error d, ts) (.error e, us)

theorem Agree.sameReading {a b : Attempt Diagnostic Parser Program} (h : Agree Alike Eq a b) :
    SameReading (a.1, a.2.pulled) (b.1, b.2.pulled) := by
  cases h with
  | ok heq _ =>
    subst heq
    exact .accepted
  | error hfault hr => exact .failed hfault hr.pulled

/-- If all tokens of a text can be read, a parser starts in front of them. -/
theorem exists_start_of_tokens {c : Cursor} (h : c.tokens = .ok ts) :
    ∃ p, start c = .ok p ∧ p.tokensAhead = .ok ts ∧ p.pulled.size = 1 ∧ p.EndsText := by
  rcases hs : start c with d | p
  · obtain ⟨c', hn⟩ := next_of_start_error hs
    rw [Cursor.tokens_of_error hn] at h
    cases h
  · obtain ⟨hn, hpulled⟩ := start_ok_iff.mp hs
    refine ⟨p, rfl, ?_, by rw [hpulled]; rfl, endsText_of_next hn⟩
    rw [← tokensAhead_of_next hn, h]

end Parser

/-- **Texts with the same terminals are read alike.** -/
theorem parseFrom_alike {c₁ c₂ : Cursor} {ts us : List Token} (h₁ : c₁.tokens = .ok ts)
    (h₂ : c₂.tokens = .ok us) (hsame : terminals ts = terminals us) :
    Parser.SameReading (Program.parseFrom c₁) (Program.parseFrom c₂) := by
  obtain ⟨p, hp, hpahead, hpsize, hpends⟩ := Parser.exists_start_of_tokens h₁
  obtain ⟨q, hq, hqahead, hqsize, hqends⟩ := Parser.exists_start_of_tokens h₂
  have hstart : p.Alike q :=
    ⟨⟨ts, us, hpahead, hqahead, hsame⟩, hpsize.trans hqsize.symm, hpends, hqends⟩
  simp only [Program.parseFrom, hp, hq]
  exact hstart.whole.sameReading

/-- Reading a text with the tokens `ts` fails with `d`, at the token of index `i`. -/
structure FailsAt (text : String) (file : Option String) (ts : List Token) (i : Nat)
    (d : Diagnostic) : Prop where
  parse : Program.parse text file = .error d
  placed : ∃ t, ts[i]? = some t ∧ d.position = t.span.position

/-- If all tokens can be read, an error is placed at the last token that was pulled. -/
theorem failsAt_of_parse_error {text : String} {file : Option String} {ts : List Token}
    {d : Diagnostic} (htokens : tokenize text file = .ok ts)
    (h : Program.parse text file = .error d) :
    FailsAt text file ts ((Program.parseFrom (.ofText text file)).2.size - 1) d := by
  refine ⟨h, ?_⟩
  rcases parse_error_cases h with hunread | ⟨before, t, hstops⟩
  · exact absurd (htokens.symm.trans hunread.tokenize_eq) nofun
  · obtain ⟨after, rfl⟩ : before ++ [t] <+: ts := by
      rw [← Cursor.produced_of_tokens htokens]
      exact hstops.produced
    refine ⟨t, ?_, hstops.offends.position⟩
    rw [hstops.pulled]
    simp

/-- **Layout does not matter.** Two texts with the same terminals are read as the same program or
fail with the same fault at the same token; so they run with the same result and bindings, or fail
with the same fault. -/
theorem parse_run_of_terminals_eq {text₁ text₂ : String} {file₁ file₂ : Option String}
    {ts us : List Token} (h₁ : tokenize text₁ file₁ = .ok ts) (h₂ : tokenize text₂ file₂ = .ok us)
    (hsame : terminals ts = terminals us) :
    ((∃ p, Program.parse text₁ file₁ = .ok p ∧ Program.parse text₂ file₂ = .ok p) ∨
      ∃ i d e, d.fault = e.fault ∧ FailsAt text₁ file₁ ts i d ∧ FailsAt text₂ file₂ us i e) ∧
    ((∃ e, Program.run text₁ file₁ = .ok e ∧ Program.run text₂ file₂ = .ok e) ∨
      ∃ d e, d.fault = e.fault ∧ Program.run text₁ file₁ = .error d ∧
        Program.run text₂ file₂ = .error e) := by
  have hread := parseFrom_alike h₁ h₂ hsame
  rcases hl : Program.parseFrom (.ofText text₁ file₁) with ⟨_, pulled₁⟩
  rcases hr : Program.parseFrom (.ofText text₂ file₂) with ⟨_, pulled₂⟩
  rw [hl, hr] at hread
  cases hread with
  | @accepted p =>
    have hp₁ : Program.parse text₁ file₁ = .ok p := congrArg Prod.fst hl
    have hp₂ : Program.parse text₂ file₂ = .ok p := congrArg Prod.fst hr
    refine ⟨.inl ⟨p, hp₁, hp₂⟩, ?_⟩
    rw [Program.run_of_parse hp₁, Program.run_of_parse hp₂]
    cases (unplaced p.check).bind fun _ => unplaced p.evaluate with
    | ok e => exact .inl ⟨e, rfl, rfl⟩
    | error d => exact .inr ⟨d, d, rfl, rfl, rfl⟩
  | @failed d e _ _ hfault hsize =>
    have hd : Program.parse text₁ file₁ = .error d := congrArg Prod.fst hl
    have he : Program.parse text₂ file₂ = .error e := congrArg Prod.fst hr
    have hfails := failsAt_of_parse_error h₂ he
    rw [hr] at hfails
    refine ⟨.inr ⟨pulled₂.size - 1, d, e, hfault, ?_, hfails⟩, .inr ⟨d, e, hfault, ?_, ?_⟩⟩
    · rw [← hsize]
      have := failsAt_of_parse_error h₁ hd
      rwa [hl] at this
    · exact Program.run_of_parse_error hd
    · exact Program.run_of_parse_error he

/-- An expression is missing, in one line and over several lines of another file. -/
theorem parse_run_of_terminals_eq_lines :
    ∃ ts us, tokenize "function f(int a) \x7b x = ; \x7d" none = .ok ts ∧
      tokenize "function f (\n  int a\n)\n\x7b\n  x = ;\n\x7d\n" (some "f.txt") = .ok us ∧
      terminals ts = terminals us ∧
      ∃ i d e, d.fault = e.fault ∧ FailsAt "function f(int a) \x7b x = ; \x7d" none ts i d ∧
        FailsAt "function f (\n  int a\n)\n\x7b\n  x = ;\n\x7d\n" (some "f.txt") us i e := by
  generalize hts : (tokenize "function f(int a) \x7b x = ; \x7d" none).toOption.getD [] = ts
  generalize hus : (tokenize "function f (\n  int a\n)\n\x7b\n  x = ;\n\x7d\n"
    (some "f.txt")).toOption.getD [] = us
  have h₁ : tokenize "function f(int a) \x7b x = ; \x7d" none = .ok ts := by
    rw [← hts]
    decide +kernel
  have h₂ : tokenize "function f (\n  int a\n)\n\x7b\n  x = ;\n\x7d\n" (some "f.txt") = .ok us := by
    rw [← hus]
    decide +kernel
  have hsame : terminals ts = terminals us := by
    rw [← hts, ← hus]
    decide +kernel
  refine ⟨ts, us, h₁, h₂, hsame, ?_⟩
  refine (parse_run_of_terminals_eq h₁ h₂ hsame).1.resolve_left ?_
  rintro ⟨p, hp, -⟩
  have hfails : (Program.parse "function f(int a) \x7b x = ; \x7d" none).toOption = none := by
    decide +kernel
  rw [hp] at hfails
  cases hfails

end Abacus
