import Abacus.Proofs.Reading.Exactness
import Abacus.Proofs.Reading.Routines
import Abacus.Proofs.Reports.Lines
import Mathlib.Logic.Relation

/-!
# Progress of the productions

* `Production.moves` — a production that succeeds has advanced past a token, and never past the end.
  Only statements before a closing brace are read without advancing.
* `Routine.orderly_script` — before a routine has advanced, it enters only routines of lower rank.
  So a production that is entered again while it runs, or a loop that goes on to another round, has
  advanced in between (`moves_of_within`).
* `run_eq_read` — following the scripts with calls nested to a fixed depth gives what the routine
  reads, if the depth is linear in what is left to read.

`parsing_progresses` puts them together.
-/

namespace Abacus

open Text

namespace Parser

variable {α : Type} {p q r : Parser} {us vs : List Token}

/-! ## Tokens that a production takes -/

theorem Reads.exists_moves {X : Lang α} {F : TokenKind → Prop} {x : α}
    {a : Attempt Diagnostic Parser α} (h : Reads X F p a) (ha : a = (.ok x, q)) :
    ∃ us, Moves p us q := by
  cases h with
  | done hm =>
    cases ha
    exact ⟨_, hm⟩
  | unread => cases ha
  | rejected => cases ha

theorem Moves.eq_of_nil (h : Moves p [] q) : q = p := by
  cases h
  rfl

theorem Production.exists_moves (f : Production) {x : f.Tree} (h : f.read p = (.ok x, q)) :
    ∃ us, Moves p us q := by
  cases f with
  | program => exact (reads_program p).exists_moves h
  | params => exact (reads_params p).exists_moves h
  | param => exact (reads_param p).exists_moves h
  | block => exact (reads_block p).exists_moves h
  | declare => exact (reads_declare p).exists_moves h
  | assign => exact (reads_assign p).exists_moves h
  | expr => exact (reads_expr p).exists_moves h
  | factor => exact (reads_factor p).exists_moves h
  | name => exact (reads_name p).exists_moves h
  | type => exact (reads_type p).exists_moves h
  | term =>
    have hreads := reads_term_of (fun q _ => reads_factor q) (Nat.le_refl p.remaining)
    exact hreads.exists_moves h
  | grouping =>
    have hreads := reads_group_of (p := p) fun q _ => reads_expr q
    exact hreads.exists_moves h
  | statements =>
    have hreads := reads_body_of (fun q _ => reads_properStmt q) (Nat.le_refl p.remaining)
    exact hreads.exists_moves h
  | stmt =>
    rw [read, attempt_stmt] at h
    split at h
    · cases h
      exact ⟨[], .refl p⟩
    · exact (reads_properStmt p).exists_moves h

/-- A production leaves less to read, except statements before a brace, which stay there. -/
theorem Production.remaining_of_read (f : Production) {x : f.Tree} (h : f.read p = (.ok x, q)) :
    ¬ ((f = .stmt ∨ f = .statements) ∧ p.kind = .rbrace) ∧ q.remaining < p.remaining ∨
      ((f = .stmt ∨ f = .statements) ∧ p.kind = .rbrace) ∧ q = p := by
  cases f with
  | stmt =>
    rw [read, attempt_stmt] at h
    split at h
    case isTrue hk =>
      cases h
      exact .inr ⟨⟨.inl rfl, hk⟩, rfl⟩
    case isFalse hk => exact .inl ⟨fun hskip => hk hskip.2, Step.fewer_of_attempt h⟩
  | statements =>
    rw [read, attempt_statements] at h
    split at h
    case isTrue hk =>
      cases h
      exact .inr ⟨⟨.inr rfl, hk⟩, rfl⟩
    case isFalse hk =>
      rw [attempt_statementsTail, if_neg hk] at h
      rcases hs : p.properStmt.attempt with ⟨_ | s, r⟩
      · rw [hs] at h
        cases h
      · rw [hs, Attempt.andThen_ok] at h
        rcases ht : r.statementsTail.attempt with ⟨_ | ss, u⟩
        · rw [ht] at h
          cases h
        · rw [ht] at h
          cases h
          have hfewer := Step.fewer_of_attempt hs
          have hfewer' := Step.fewer_of_attempt ht
          exact .inl ⟨fun hskip => hk hskip.2, by omega⟩
  | _ => exact .inl ⟨by simp, Step.fewer_of_attempt h⟩

/-- **A production that succeeds has advanced past a token**, and never past the end. Statements are
read without advancing exactly before a closing brace. -/
theorem Production.moves (f : Production) {x : f.Tree} (h : f.read p = (.ok x, q)) :
    ∃ us, Moves p us q ∧ (us = [] ↔ (f = .stmt ∨ f = .statements) ∧ p.kind = .rbrace) := by
  obtain ⟨us, hm⟩ := f.exists_moves h
  refine ⟨us, hm, ?_⟩
  rcases f.remaining_of_read h with ⟨hskip, hlt⟩ | ⟨hskip, rfl⟩
  · refine iff_of_false ?_ hskip
    rintro rfl
    rw [hm.eq_of_nil] at hlt
    exact Nat.lt_irrefl _ hlt
  · have hlength := hm.remaining_add
    exact iff_of_true (List.eq_nil_of_length_eq_zero (by omega)) hskip

/-! ## Order of the calls -/

/-- A production calls only productions of lower rank before it has advanced. -/
def Production.rank : Production → Nat
  | program | block | grouping | name | type => 0
  | param | declare | assign | factor => 1
  | params | stmt | term => 2
  | statements | expr => 3

theorem Production.rank_lt (f : Production) : f.rank < 4 := by
  cases f <;> decide

namespace Script

variable {s : Script α} {n : Nat}

/-- No call is left. -/
def Silent (s : Script α) : Prop := ∀ g q, ¬ s.Calls g q

/-- From `p` on the script calls after advancing, or enters a routine of a rank below `n`. -/
def Orderly (n : Nat) (p : Parser) (s : Script α) : Prop :=
  ∀ g q, s.Calls g q → ∃ us, Moves p us q ∧ (us = [] → g.Enters q → g.owner.rank < n)

theorem silent_answer (a : Attempt Diagnostic Parser α) : Silent (answer a) := by
  intro g q h
  cases h

theorem silent_token {a : Attempt Diagnostic Parser Token} {k : Token → Parser → Script α}
    (h : ∀ t q, Silent (k t q)) : Silent (token a k) := by
  obtain ⟨d | t, q⟩ := a
  · exact silent_answer _
  · exact h t q

theorem Silent.orderly (h : Silent s) : Orderly n p s := fun g q hcall => absurd hcall (h g q)

/-- After advancing, every rank will do. -/
theorem Orderly.after {m : Nat} (h : Orderly m q s) (hm : Moves p us q) (hne : us ≠ []) :
    Orderly n p s := by
  intro g r hcall
  obtain ⟨vs, hv, -⟩ := h g r hcall
  exact ⟨us ++ vs, hm.trans hv, fun hnil => absurd (List.append_eq_nil_iff.mp hnil).1 hne⟩

theorem orderly_advance {k : Token → Parser → Script α} (hk : p.kind ≠ .eof)
    (h : ∀ t q, Orderly 4 q (k t q)) : Orderly n p (token p.advance k) := by
  rcases ha : p.advance with ⟨d | t, q⟩
  · exact (silent_answer _).orderly
  · obtain ⟨rfl, -⟩ := advance_ok_iff.mp ha
    exact (h _ q).after (.step hk ha (.refl q)) (List.cons_ne_nil _ _)

theorem orderly_expect {kind : TokenKind} {k : Token → Parser → Script α} (hk : kind ≠ .eof)
    (h : ∀ t q, Orderly 4 q (k t q)) : Orderly n p (token (p.expect kind) k) := by
  unfold expect expectOr
  split
  case isTrue heq => exact orderly_advance (heq ▸ hk) h
  case isFalse => exact (silent_answer _).orderly

/-- A call, and then what the script does after it. -/
theorem orderly_call {f : Routine} {k : f.Tree → Parser → Script α}
    (hrank : f.Enters p → f.owner.rank < n)
    (h : ∀ x q, f.read p = (.ok x, q) → Orderly n p (k x q)) : Orderly n p (call f p k) := by
  intro g q hcall
  cases hcall with
  | here => exact ⟨[], .refl p, fun _ => hrank⟩
  | later hread hcall => exact h _ _ hread g q hcall

/-- A production that always advances, and then any calls. -/
theorem orderly_production {f : Production} {k : f.Tree → Parser → Script α} (hrank : f.rank < n)
    (hf : ¬ (f = .stmt ∨ f = .statements)) (h : ∀ x q, Orderly 4 q (k x q)) :
    Orderly n p (call (.production f) p k) := by
  refine orderly_call (fun _ => hrank) fun x q hread => ?_
  obtain ⟨us, hm, hnil⟩ := f.moves hread
  exact (h x q).after hm fun heq => hf (hnil.mp heq).1

/-- A production as the last call. -/
theorem orderly_last {f : Routine} {k : f.Tree → Parser → Script α}
    (hrank : f.Enters p → f.owner.rank < n) (h : ∀ x q, Silent (k x q)) :
    Orderly n p (call f p k) :=
  orderly_call hrank fun x q _ => (h x q).orderly

/-- A statement may be read without advancing, but then no round follows. -/
theorem orderly_stmt {k : Stmt → (q : Parser) → List Stmt → Parser → Script α} (hn : 2 < n)
    (h : ∀ s q ss r, Silent (k s q ss r)) :
    Orderly n p (call (.production .stmt) p fun s q => call .moreStatements q (k s q)) := by
  refine orderly_call (fun _ => hn) fun s q hread => ?_
  obtain ⟨us, hm, hnil⟩ := Production.stmt.moves hread
  by_cases hus : us = []
  · obtain ⟨-, hk⟩ := hnil.mp hus
    subst hus
    obtain rfl := hm.eq_of_nil
    exact orderly_last (fun henters => absurd hk henters) (h s q)
  · have hmore : Orderly 4 q (call .moreStatements q (k s q)) :=
      orderly_last (fun _ => Production.rank_lt _) (h s q)
    exact hmore.after hm hus

end Script

open Script

theorem Production.orderly_script (p : Parser) (f : Production) :
    Orderly f.rank p (f.script p) := by
  cases f with
  | program =>
    rw [script]
    split
    case isTrue h =>
      refine orderly_advance (by rw [h.1]; decide) fun _ q => ?_
      refine orderly_expect (by decide) fun _ r => ?_
      refine orderly_expect (by decide) fun _ s => ?_
      refine orderly_production (by decide) (by simp) fun _ u => ?_
      refine orderly_expect (by decide) fun _ v => ?_
      exact orderly_last (fun _ => by decide) fun _ _ => silent_answer _
    case isFalse => exact (silent_answer _).orderly
  | params =>
    refine orderly_production (by decide) (by simp) fun _ q => ?_
    exact orderly_last (fun _ => by decide) fun _ _ => silent_answer _
  | param =>
    refine orderly_last (fun _ => by decide) fun _ _ => ?_
    exact silent_token fun _ _ => silent_answer _
  | block =>
    refine orderly_expect (by decide) fun _ q => ?_
    refine orderly_last (fun _ => by decide) fun _ _ => ?_
    exact silent_token fun _ _ => silent_answer _
  | statements => exact orderly_stmt (by decide) fun _ _ _ _ => silent_answer _
  | stmt =>
    rw [script]
    cases p.kind
    case lbrace => exact orderly_last (fun _ => by decide) fun _ _ => silent_answer _
    case ident => exact orderly_last (fun _ => by decide) fun _ _ => silent_answer _
    case int => exact orderly_last (fun _ => by decide) fun _ _ => silent_answer _
    case float => exact orderly_last (fun _ => by decide) fun _ _ => silent_answer _
    all_goals exact (silent_answer _).orderly
  | declare =>
    refine orderly_production (by decide) (by simp) fun _ q => ?_
    refine orderly_last (fun _ => by decide) fun _ _ => ?_
    exact silent_token fun _ _ => silent_answer _
  | assign =>
    refine orderly_production (by decide) (by simp) fun _ q => ?_
    refine orderly_expect (by decide) fun _ r => ?_
    refine orderly_last (fun _ => by decide) fun _ _ => ?_
    exact silent_token fun _ _ => silent_answer _
  | expr =>
    refine orderly_production (by decide) (by simp) fun _ q => ?_
    exact orderly_last (fun _ => Production.rank_lt _) fun _ _ => silent_answer _
  | term =>
    refine orderly_production (by decide) (by simp) fun _ q => ?_
    exact orderly_last (fun _ => Production.rank_lt _) fun _ _ => silent_answer _
  | factor =>
    rw [script]
    split
    case h_1 op hs =>
      refine orderly_advance (TokenKind.ne_eof hs rfl) fun _ q => ?_
      exact orderly_last (fun _ => by decide) fun _ _ => silent_answer _
    case h_2 =>
      split
      case h_1 kind hl =>
        exact orderly_advance (TokenKind.ne_eof hl rfl) fun _ _ => (silent_answer _).orderly
      case h_2 =>
        split
        · exact orderly_last (fun _ => by decide) fun _ _ => silent_answer _
        · exact orderly_last (fun _ => by decide) fun _ _ => silent_answer _
  | grouping =>
    refine orderly_expect (by decide) fun _ q => ?_
    refine orderly_last (fun _ => by decide) fun _ _ => ?_
    exact silent_token fun _ _ => silent_answer _
  | name => exact (silent_token fun _ _ => silent_answer _).orderly
  | type =>
    rw [script]
    split
    · exact (silent_token fun _ _ => silent_answer _).orderly
    · exact (silent_answer _).orderly

/-- **A routine advances before it enters a routine of its own rank or above.** -/
theorem Routine.orderly_script (p : Parser) (f : Routine) :
    Orderly f.owner.rank p (f.script p) := by
  cases f with
  | production f => exact f.orderly_script p
  | moreParams =>
    rw [script]
    split
    case isTrue hk =>
      refine orderly_advance (by rw [hk]; decide) fun _ q => ?_
      refine orderly_production (by decide) (by simp) fun _ r => ?_
      exact orderly_last (fun _ => by decide) fun _ _ => silent_answer _
    case isFalse => exact (silent_answer _).orderly
  | moreStatements =>
    rw [script]
    split
    · exact (silent_answer _).orderly
    · exact orderly_stmt (by decide) fun _ _ _ _ => silent_answer _
  | moreTerms left =>
    rw [script]
    split
    case h_1 op hop =>
      refine orderly_advance (TokenKind.ne_eof hop rfl) fun _ q => ?_
      refine orderly_production (by decide) (by simp) fun _ r => ?_
      exact orderly_last (fun _ => Production.rank_lt _) fun _ _ => silent_answer _
    case h_2 => exact (silent_answer _).orderly
  | moreFactors left =>
    rw [script]
    split
    case h_1 op hop =>
      refine orderly_advance (TokenKind.ne_eof hop rfl) fun _ q => ?_
      refine orderly_production (by decide) (by simp) fun _ r => ?_
      exact orderly_last (fun _ => Production.rank_lt _) fun _ _ => silent_answer _
    case h_2 => exact (silent_answer _).orderly

/-- A loop whose test fails calls nothing. -/
theorem Routine.enters_of_calls {f g : Routine} (h : (f.script p).Calls g q) : f.Enters p := by
  cases f with
  | production f => trivial
  | moreParams =>
    rw [script] at h
    split at h
    case isTrue hk => exact hk
    case isFalse => exact absurd h (silent_answer _ _ _)
  | moreStatements =>
    rw [script] at h
    split at h
    case isTrue => exact absurd h (silent_answer _ _ _)
    case isFalse hk => exact hk
  | moreTerms left =>
    rw [script] at h
    split at h
    case h_1 op hop => exact Option.isSome_of_eq_some hop
    case h_2 => exact absurd h (silent_answer _ _ _)
  | moreFactors left =>
    rw [script] at h
    split at h
    case h_1 op hop => exact Option.isSome_of_eq_some hop
    case h_2 => exact absurd h (silent_answer _ _ _)

/-! ## Calls within calls -/

/-- A routine at a parser calls another one at another parser. -/
def Invokes (a b : Routine × Parser) : Prop := (a.1.script a.2).Calls b.1 b.2

/-- The second routine is called while the first one runs, by it or by what it calls. -/
def Within : Routine × Parser → Routine × Parser → Prop := Relation.TransGen Invokes

theorem enters_of_within {a b : Routine × Parser} (h : Within a b) : a.1.Enters a.2 := by
  obtain ⟨c, hc, -⟩ := Relation.TransGen.head'_iff.mp h
  exact Routine.enters_of_calls hc

theorem moves_of_within {a b : Routine × Parser} (h : Within a b) (hb : b.1.Enters b.2) :
    ∃ us, Moves a.2 us b.2 ∧ (us = [] → b.1.owner.rank < a.1.owner.rank) := by
  induction h using Relation.TransGen.head_induction_on with
  | @single a hcall =>
    obtain ⟨us, hm, hrank⟩ := a.1.orderly_script a.2 b.1 b.2 hcall
    exact ⟨us, hm, fun hnil => hrank hnil hb⟩
  | @head a c hcall hwithin ih =>
    obtain ⟨us, hm, hrank⟩ := a.1.orderly_script a.2 c.1 c.2 hcall
    obtain ⟨vs, hm', hrank'⟩ := ih
    refine ⟨us ++ vs, hm.trans hm', fun hnil => ?_⟩
    obtain ⟨hus, hvs⟩ := List.append_eq_nil_iff.mp hnil
    exact Nat.lt_trans (hrank' hvs) (hrank hus (enters_of_within hwithin))

/-! ## Calls to a fixed depth -/

/-- Follows the script of a routine with calls nested at most `n` deep. -/
def Routine.run : Nat → (f : Routine) → Parser → Option (Attempt Diagnostic Parser f.Tree)
  | 0, _, _ => none
  | n + 1, f, p => (f.script p).evalWith (run n)

/-- **The depth that is enough** is linear in what is left to read. -/
theorem run_eq_read {f : Routine} {n : Nat} (hpos : 0 < n)
    (h : f.Enters p → 4 * p.remaining + f.owner.rank + 2 ≤ n) : f.run n p = some (f.read p) := by
  induction n generalizing f p with
  | zero => exact absurd hpos (Nat.lt_irrefl 0)
  | succ n ih =>
    rw [Routine.run, ← f.eval_script p]
    refine evalWith_eq _ fun g q hcall => ?_
    have hdepth := h (Routine.enters_of_calls hcall)
    obtain ⟨us, hm, hrank⟩ := f.orderly_script p g q hcall
    refine ih (by omega) fun hg => ?_
    have hremaining := hm.remaining_add
    by_cases hus : us = []
    · have hlt := hrank hus hg
      omega
    · have hlength := List.length_pos_iff.mpr hus
      have hlt := g.owner.rank_lt
      omega

/-- Reads a program from a text, with calls nested at most `n` deep. -/
def parseWithin (n : Nat) (text : String) (file : Option String) :
    Option (Except Diagnostic Program) :=
  match start (.ofText text file) with
  | .error d => some (.error d)
  | .ok p =>
    ((Routine.production .program).run n p).map fun a =>
      (Attempt.andThen a fun program q =>
        (q.expect .eof).andThen fun _ r => (Except.ok program, r)).1

theorem remaining_of_start {c : Cursor} (hs : start c = .ok p) : p.remaining ≤ c.rest.length := by
  unfold remaining
  rcases Cursor.next_length (start_ok_iff.mp hs).1 with hlt | ⟨hk, hle⟩
  · split <;> omega
  · rw [if_pos (show p.kind = .eof from hk)]
    exact hle

theorem length_le_byteLength (chars : List Char) : chars.length ≤ byteLength chars := by
  induction chars with
  | nil => exact Nat.le_refl 0
  | cons c cs ih =>
    have hpos := Char.utf8Size_pos c
    rw [List.length_cons, byteLength_cons]
    omega

theorem parseWithin_eq_parse {n : Nat} {text : String} (file : Option String)
    (h : 4 * text.utf8ByteSize + 2 ≤ n) :
    parseWithin n text file = some (Program.parse text file) := by
  unfold parseWithin Program.parse Program.parseFrom
  cases hs : start (.ofText text file) with
  | error d => rfl
  | ok p =>
    have hremaining : p.remaining ≤ text.toList.length := remaining_of_start hs
    have hlength := length_le_byteLength text.toList
    rw [← utf8ByteSize_eq_byteLength] at hlength
    have hrun : (Routine.production .program).run n p = some p.program.attempt := by
      refine run_eq_read (by omega) fun _ => ?_
      have hrank : (Routine.production .program).owner.rank = 0 := rfl
      omega
    simp only [hrun]
    rfl

/-- **Parsing makes progress and ends.** A production that succeeds has advanced past a token other
than the end, statements before a closing brace apart; it has advanced before it is entered again,
and before each round of its loop; and calls nested to a depth linear in the text are enough for
every text. -/
theorem parsing_progresses :
    (∀ (f : Production) (p q : Parser), f.call p = (.ok (), q) →
      ∃ us, Moves p us q ∧ (us = [] ↔ (f = .stmt ∨ f = .statements) ∧ p.kind = .rbrace)) ∧
    (∀ (f g : Routine) (p q : Parser), Within (f, p) (g, q) → g.Enters q → f.owner = g.owner →
      ∃ us, us ≠ [] ∧ Moves p us q) ∧
    (∀ (f : Routine) (p : Parser) (n : Nat), 4 * p.remaining + 5 ≤ n →
      f.run n p = some (f.read p)) ∧
    ∀ (text : String) (file : Option String) (n : Nat), 4 * text.utf8ByteSize + 2 ≤ n →
      parseWithin n text file = some (Program.parse text file) := by
  refine ⟨?_, ?_, ?_, fun text file n => parseWithin_eq_parse file⟩
  · intro f p q h
    rw [f.call_eq] at h
    rcases hread : f.read p with ⟨_ | x, r⟩
    · rw [hread] at h
      cases h
    · rw [hread] at h
      cases h
      exact f.moves hread
  · intro f g p q h hg howner
    obtain ⟨us, hm, hrank⟩ := moves_of_within h hg
    refine ⟨us, fun hnil => ?_, hm⟩
    have hlt := hrank hnil
    rw [howner] at hlt
    exact Nat.lt_irrefl _ hlt
  · intro f p n h
    have hlt := f.owner.rank_lt
    exact run_eq_read (by omega) fun _ => by omega

/-- A text that ends inside a block is rejected within the depth; a name in parentheses is an
expression inside an expression, entered after the parenthesis; and the loop over parameters has
advanced before its first round, at a comma, and again before the next one. -/
theorem parsing_progresses_nested :
    parseWithin 94 "function f(int a) \x7b \x7b \x7d" none =
        some (.error ⟨.misplaced "EOF" "expected a statement", ⟨23, "shell"⟩⟩) ∧
      (∃ p q, start (.ofText "(x)" none) = .ok p ∧
        Within (.production .expr, p) (.production .expr, q) ∧ ∃ us, us ≠ [] ∧ Moves p us q) ∧
      ∃ p q r, start (.ofText "int a,int b,int c" none) = .ok p ∧
        Within (.production .params, p) (.moreParams, q) ∧ q.kind = .comma ∧
        Within (.moreParams, q) (.moreParams, r) ∧ r.kind = .comma ∧
        (∃ us, us ≠ [] ∧ Moves p us q) ∧ ∃ us, us ≠ [] ∧ Moves q us r := by
  refine ⟨?_, ?_, ?_⟩
  · rw [parsing_progresses.2.2.2 _ none 94 (by decide +kernel)]
    exact congrArg some (by decide +kernel)
  · let p : Parser := ⟨⟨"shell", 1, "x)".toList⟩, ⟨.lparen, "(", ⟨0, 1, "shell"⟩⟩,
      #[⟨.lparen, "(", ⟨0, 1, "shell"⟩⟩]⟩
    let q : Parser := ⟨⟨"shell", 2, ")".toList⟩, ⟨.ident, "x", ⟨1, 2, "shell"⟩⟩,
      #[⟨.lparen, "(", ⟨0, 1, "shell"⟩⟩, ⟨.ident, "x", ⟨1, 2, "shell"⟩⟩]⟩
    have hterm : Invokes (.production .expr, p) (.production .term, p) := by exact .here _
    have hfactor : Invokes (.production .term, p) (.production .factor, p) := by exact .here _
    have hgroup : Invokes (.production .factor, p) (.production .grouping, p) := by exact .here _
    have hexpr : Invokes (.production .grouping, p) (.production .expr, q) := by exact .here _
    have hwithin : Within (.production .expr, p) (.production .expr, q) :=
      .head hterm (.head hfactor (.head hgroup (.single hexpr)))
    exact ⟨p, q, rfl, hwithin, parsing_progresses.2.1 _ _ _ _ hwithin trivial rfl⟩
  · let int (n : UInt32) : Token := ⟨.int, "int", ⟨n, n + 3, "shell"⟩⟩
    let word (x : String) (n : UInt32) : Token := ⟨.ident, x, ⟨n, n + 1, "shell"⟩⟩
    let comma (n : UInt32) : Token := ⟨.comma, ",", ⟨n, n + 1, "shell"⟩⟩
    let p : Parser := ⟨⟨"shell", 3, " a,int b,int c".toList⟩, int 0, #[int 0]⟩
    let q : Parser := ⟨⟨"shell", 6, "int b,int c".toList⟩, comma 5, #[int 0, word "a" 4, comma 5]⟩
    let r : Parser := ⟨⟨"shell", 12, "int c".toList⟩, comma 11,
      #[int 0, word "a" 4, comma 5, int 6, word "b" 10, comma 11]⟩
    have hfirst : Within (.production .params, p) (.moreParams, q) :=
      .single (.later (x := ⟨.int, "a"⟩) rfl (.here _))
    have hnext : Within (.moreParams, q) (.moreParams, r) :=
      .single (.later (x := ⟨.int, "b"⟩) rfl (.here _))
    exact ⟨p, q, r, rfl, hfirst, rfl, hnext, rfl, parsing_progresses.2.1 _ _ _ _ hfirst rfl rfl,
      parsing_progresses.2.1 _ _ _ _ hnext rfl rfl⟩

end Parser

end Abacus
