import Abacus.Proofs.Reading.Productions

/-!
# Reading a program is exact

`parseFrom_outcome` sums up a whole run of the parser: the program is accepted with a derivation of
all tokens, or the run stops at a token that cannot be read, or it stops at a token that no program
can have there. The rest follows from the grammar alone:

* `parse_ok_iff_derives` — a text is accepted with a tree iff its tokens derive that tree, and
  tokens derive at most one.
* `parse_error_earliest` — an error is found at the earliest token: what comes before it starts some
  program, and with it no more. A lexical error counts only if no syntax error comes before it.
-/

namespace Abacus

open Grammar

/-- Answers can be compared, so that the reading of a fixed text is settled by evaluation. -/
instance decidableEqAnswer {ε α : Type} [DecidableEq ε] [DecidableEq α] :
    DecidableEq (Except ε α)
  | .ok a, .ok b => decidable_of_iff (a = b) (by simp)
  | .error d, .error e => decidable_of_iff (d = e) (by simp)
  | .ok _, .error _ | .error _, .ok _ => isFalse (by simp)

namespace Grammar

theorem viable_of_begins {w : List Terminal} (h : Begins DerivesFunction w) : Viable w := by
  obtain ⟨u, p, hp⟩ := h
  refine ⟨u ++ [⟨.eof, ""⟩], p, ?_⟩
  rw [← List.append_assoc]
  exact DerivesProgram.mk hp rfl

theorem not_viable_of_stuck {w : List Terminal} (h : Stuck anyKind DerivesFunction w) :
    ¬ Viable w := by
  rintro ⟨u, p, hp⟩
  generalize hv : w ++ u = v at hp
  obtain ⟨hf, -⟩ := hp
  exact h hf (opens_anyKind _) ⟨u, hv⟩

/-- After a whole function only the end can follow. -/
theorem not_viable_after_function {w : List Terminal} {p : Program} {t : Terminal}
    (h : DerivesFunction w p) (ht : t.kind ≠ .eof) : ¬ Viable (w ++ [t]) := by
  rintro ⟨u, p', hp'⟩
  generalize hv : w ++ [t] ++ u = v at hp'
  obtain ⟨hf, heof⟩ := hp'
  rw [List.append_assoc] at hv
  obtain ⟨rfl, -⟩ := function_forced h hf hv (opens_anyKind _) (opens_anyKind _)
  obtain ⟨rfl, -⟩ := List.cons_eq_cons.mp (List.append_cancel_left hv)
  exact ht heof

end Grammar

/-- The tokens `before` start some program, with `t` they do not, and the diagnostic is about `t`.
If it names a kind that it expected, that kind could stand here. -/
structure Offends (before : List Token) (t : Token) (d : Diagnostic) : Prop where
  phase : d.fault.phase = .syntactic
  position : d.position = t.span.position
  viable : Viable (terminals before)
  stuck : ¬ Viable (terminals (before ++ [t]))
  expected : ∀ k received, d.fault = .unexpected k received →
    received = t.kind ∧ ∀ lexeme, Viable (terminals before ++ [⟨k, lexeme⟩])

/-- **The outcomes of reading a program**: the answer and the tokens pulled. -/
inductive Outcome (c : Cursor) : Attempt Diagnostic (Array Token) Program → Prop
  | accepted {ts : List Token} {p : Program} {pulled : Array Token}
      (htokens : c.tokens = .ok ts) (hp : DerivesProgram (terminals ts) p) :
      Outcome c (.ok p, pulled)
  | unread {d : Diagnostic} (hphase : d.fault.phase = .lexical) (htokens : c.tokens = .error d)
      (hviable : Viable (terminals c.produced)) : Outcome c (.error d, c.produced.toArray)
  | offended {before : List Token} {t : Token} {d : Diagnostic}
      (hproduced : before ++ [t] <+: c.produced) (hd : Offends before t d) :
      Outcome c (.error d, (before ++ [t]).toArray)

namespace Parser

variable {c : Cursor} {p q q' : Parser} {us : List Token} {d : Diagnostic}

/-- What a parser has in front of it and behind it after its first tokens. -/
theorem produced_of_moves (hs : start c = .ok p) (hm : Moves p us q) :
    c.produced = us ++ q.ahead ∧ c.tokens = q.tokensAhead.map (us ++ ·) ∧
      q.pulled = (us ++ [q.current]).toArray ∧ q.EndsText := by
  obtain ⟨hn, hp⟩ := start_ok_iff.mp hs
  refine ⟨?_, ?_, ?_, hm.endsText (endsText_of_next hn)⟩
  · rw [← hm.ahead]
    exact ahead_of_next hn
  · rw [← hm.tokensAhead]
    exact tokensAhead_of_next hn
  · have hfirst : p.pulled.toList = [] ++ [p.current] := by rw [hp]; rfl
    have hpulled := hm.pulled hfirst
    rw [List.nil_append] at hpulled
    rw [← hpulled]

theorem current_prefix_ahead (q : Parser) : [q.current] <+: q.ahead := by
  unfold ahead
  split
  · exact List.prefix_refl _
  · exact ⟨_, rfl⟩

theorem outcome_of_unread (hs : start c = .ok p) (hm : Moves p us q) (hk : q.kind ≠ .eof)
    (hd : q.advance = (.error d, q'))
    (hb : Begins DerivesFunction (terminals (us ++ [q.current]))) :
    Outcome c (.error d, q'.pulled) := by
  obtain ⟨hproduced, htokens, hpulled, -⟩ := produced_of_moves hs hm
  obtain ⟨c', hn, rfl⟩ := next_of_advance_error hd
  rw [ahead, if_neg hk, Cursor.produced_of_error hn] at hproduced
  rw [tokensAhead, if_neg hk, Cursor.tokens_of_error hn] at htokens
  show Outcome c (.error d, q.pulled)
  rw [hpulled, ← hproduced]
  refine .unread (Cursor.phase_of_next_error hn) htokens ?_
  rw [hproduced]
  exact viable_of_begins hb

theorem outcome_of_offends (hs : start c = .ok p) (hm : Moves p us q)
    (hd : Offends us q.current d) : Outcome c (.error d, q.pulled) := by
  obtain ⟨hproduced, -, hpulled, -⟩ := produced_of_moves hs hm
  rw [hpulled]
  refine .offended ?_ hd
  rw [hproduced]
  exact (List.prefix_append_right_inj us).mpr (current_prefix_ahead q)

theorem offends_of_blames (hb : Begins DerivesFunction (terminals us))
    (hs : Stuck anyKind DerivesFunction (terminals (us ++ [q.current])))
    (hd : Blames DerivesFunction us q d) : Offends us q.current d := by
  refine ⟨hd.phase, hd.position, viable_of_begins hb, not_viable_of_stuck hs, ?_⟩
  intro k received he
  obtain ⟨hr, hb⟩ := hd.expected k received he
  exact ⟨hr, fun lexeme => viable_of_begins (hb lexeme)⟩

/-- A whole function must be followed by the end. -/
theorem offends_after_function {program : Program}
    (hp : DerivesFunction (terminals us) program) (hk : q.kind ≠ .eof) :
    Offends us q.current (q.mismatch .eof) := by
  have hend : ∀ lexeme, DerivesProgram (terminals us ++ [⟨.eof, lexeme⟩]) program :=
    fun lexeme => DerivesProgram.mk hp rfl
  refine ⟨rfl, rfl, ⟨_, program, hend ""⟩, ?_, ?_⟩
  · rw [terminals, List.map_append]
    exact not_viable_after_function hp hk
  · intro k received he
    simp only [mismatch, Fault.unexpected.injEq] at he
    obtain ⟨rfl, rfl⟩ := he
    refine ⟨rfl, fun lexeme => ⟨[], program, ?_⟩⟩
    rw [List.append_nil]
    exact hend lexeme

/-- The last step of a run: the end of the text. -/
theorem outcome_of_function {program : Program} (hs : start c = .ok p) (hm : Moves p us q)
    (hp : DerivesFunction (terminals us) program) :
    Outcome c (((q.expect .eof).andThen fun _ r => (.ok program, r)).1,
      ((q.expect .eof).andThen fun _ r => (.ok program, r)).2.pulled) := by
  obtain ⟨-, htokens, -, hends⟩ := produced_of_moves hs hm
  unfold expect expectOr
  by_cases hk : q.kind = .eof
  · obtain ⟨r, hr⟩ := advance_of_eof hends hk
    rw [if_pos hk, hr]
    rw [tokensAhead, if_pos hk] at htokens
    refine .accepted htokens ?_
    rw [terminals, List.map_append]
    exact DerivesProgram.mk hp hk
  · rw [if_neg hk]
    exact outcome_of_offends hs hm (offends_after_function hp hk)

end Parser

/-- **Every run of the parser has one of the three outcomes.** -/
theorem parseFrom_outcome (c : Cursor) : Outcome c (Program.parseFrom c) := by
  unfold Program.parseFrom
  split
  case h_1 d hs =>
    obtain ⟨c', hn⟩ := Parser.next_of_start_error hs
    have hproduced := Cursor.produced_of_error hn
    rw [show (#[] : Array Token) = c.produced.toArray by rw [hproduced]]
    refine .unread (Cursor.phase_of_next_error hn) (Cursor.tokens_of_error hn) ?_
    rw [hproduced]
    exact viable_of_begins begins_nil
  case h_2 p hs =>
    have hreads := p.reads_program
    generalize p.program.attempt = a at hreads
    cases hreads with
    | done hm hp _ => exact Parser.outcome_of_function hs hm hp
    | unread hm hk hd hb => exact Parser.outcome_of_unread hs hm hk hd hb
    | rejected hm hb hstuck hd =>
      exact Parser.outcome_of_offends hs hm (Parser.offends_of_blames hb hstuck hd)

/-! ## Acceptance -/

/-- What is derived is viable up to any of its tokens. -/
theorem viable_of_derives {w u : List Terminal} {p : Program} (h : DerivesProgram w p)
    (hu : u <+: w) : Viable u := by
  obtain ⟨v, rfl⟩ := hu
  exact ⟨v, p, h⟩

theorem parse_eq_ok_iff {text : String} {file : Option String} {p : Program} :
    Program.parse text file = .ok p ↔
      ∃ ts, tokenize text file = .ok ts ∧ DerivesProgram (terminals ts) p := by
  have hout := parseFrom_outcome (.ofText text file)
  unfold Program.parse tokenize
  generalize Program.parseFrom (.ofText text file) = a at hout
  cases hout with
  | @accepted ts p' _ htokens hp' =>
    rw [htokens]
    constructor
    · intro h
      cases h
      exact ⟨ts, rfl, hp'⟩
    · rintro ⟨ts', hts', hp⟩
      cases hts'
      rw [derivesProgram_unique hp hp']
  | unread _ htokens _ =>
    rw [htokens]
    constructor
    · intro h
      cases h
    · rintro ⟨ts, hts, -⟩
      cases hts
  | offended hproduced hd =>
    constructor
    · intro h
      cases h
    · rintro ⟨ts, hts, hp⟩
      rw [Cursor.produced_of_tokens hts] at hproduced
      exact absurd (viable_of_derives hp (hproduced.map Token.terminal)) hd.stuck

/-- **A text is read as a tree iff its tokens derive the tree**, and a word derives at most one. -/
theorem parse_ok_iff_derives :
    (∀ (text : String) (file : Option String) (p : Program),
      Program.parse text file = .ok p ↔
        ∃ ts, tokenize text file = .ok ts ∧ DerivesProgram (terminals ts) p) ∧
    ∀ (w : List Terminal) (p q : Program), DerivesProgram w p → DerivesProgram w q → p = q :=
  ⟨fun _ _ _ => parse_eq_ok_iff, fun _ _ _ => derivesProgram_unique⟩

/-- A difference leans to the left, and no other tree has its word. -/
theorem parse_ok_iff_derives_difference :
    ∃ ts p, tokenize "function f(int a) \x7b x = 3 - 2 - a; \x7d" none = .ok ts ∧
      p.body = [.assign "x" (.binary .sub (.binary .sub (.literal .int "3") (.literal .int "2"))
        (.var "a"))] ∧
      DerivesProgram (terminals ts) p ∧ ∀ q, DerivesProgram (terminals ts) q → q = p := by
  have h : Program.parse "function f(int a) \x7b x = 3 - 2 - a; \x7d" none =
      .ok ⟨"f", [⟨.int, "a"⟩], [.assign "x" (.binary .sub (.binary .sub (.literal .int "3")
        (.literal .int "2")) (.var "a"))]⟩ := by decide +kernel
  obtain ⟨ts, hts, hp⟩ := (parse_ok_iff_derives.1 _ _ _).mp h
  exact ⟨ts, _, hts, rfl, hp, fun q hq => parse_ok_iff_derives.2 _ _ _ hq hp⟩

/-! ## Errors -/

/-- The next token cannot be read, and all tokens before it start some program. -/
structure StopsUnread (text : String) (file : Option String) (d : Diagnostic) : Prop where
  phase : d.fault.phase = .lexical
  tokenize_eq : tokenize text file = .error d
  viable : Viable (terminals (Cursor.ofText text file).produced)

/-- The token `t` of the text offends after the tokens `before`, and none after it is pulled. -/
structure StopsAt (text : String) (file : Option String) (d : Diagnostic) (before : List Token)
    (t : Token) : Prop where
  produced : before ++ [t] <+: (Cursor.ofText text file).produced
  offends : Offends before t d
  pulled : (Program.parseFrom (.ofText text file)).2 = (before ++ [t]).toArray

/-- Reading fails at a token that cannot be read or at one that offends. -/
theorem parse_error_cases {text : String} {file : Option String} {d : Diagnostic}
    (h : Program.parse text file = .error d) :
    StopsUnread text file d ∨ ∃ before t, StopsAt text file d before t := by
  have hout := parseFrom_outcome (.ofText text file)
  unfold Program.parse at h
  generalize ha : Program.parseFrom (.ofText text file) = a at hout h
  cases hout with
  | accepted => cases h
  | unread hphase htokens hviable =>
    cases h
    exact .inl ⟨hphase, htokens, hviable⟩
  | @offended before t _ hproduced hd =>
    cases h
    exact .inr ⟨before, t, hproduced, hd, by rw [ha]⟩

theorem StopsUnread.not_stopsAt {text : String} {file : Option String} {d : Diagnostic}
    (h : StopsUnread text file d) : ¬ ∃ before t, StopsAt text file d before t := by
  rintro ⟨before, t, h'⟩
  exact absurd (h.phase.symm.trans h'.offends.phase) nofun

/-- **An error is found at the earliest token.** Exactly one holds: a token cannot be read and all
before it start some program, or a token offends. -/
theorem parse_error_earliest {text : String} {file : Option String} {d : Diagnostic}
    (h : Program.parse text file = .error d) :
    (StopsUnread text file d ∧ ¬ ∃ before t, StopsAt text file d before t) ∨
      ((∃ before t, StopsAt text file d before t) ∧ ¬ StopsUnread text file d) := by
  rcases parse_error_cases h with hunread | hstops
  · exact .inl ⟨hunread, hunread.not_stopsAt⟩
  · exact .inr ⟨hstops, fun hunread => hunread.not_stopsAt hstops⟩

/-- A closing parenthesis offends although a character after it cannot be read. -/
theorem parse_error_earliest_before_unsupported :
    ∃ d, Program.parse "function f(int a) \x7b x = 1 ) $ \x7d" none = .error d ∧
      ((StopsUnread "function f(int a) \x7b x = 1 ) $ \x7d" none d ∧
          ¬ ∃ before t, StopsAt "function f(int a) \x7b x = 1 ) $ \x7d" none d before t) ∨
        ((∃ before t, StopsAt "function f(int a) \x7b x = 1 ) $ \x7d" none d before t) ∧
          ¬ StopsUnread "function f(int a) \x7b x = 1 ) $ \x7d" none d)) := by
  have h : Program.parse "function f(int a) \x7b x = 1 ) $ \x7d" none =
      .error ⟨.unexpected .semi .rparen, ⟨26, "shell"⟩⟩ := by decide +kernel
  exact ⟨_, h, parse_error_earliest h⟩

end Abacus
