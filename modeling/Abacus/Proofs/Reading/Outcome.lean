import Abacus.Proofs.Grammar.Unambiguous
import Abacus.Proofs.Reading.Stream

/-!
# What a production does

A production that reads a language `X` from a parser has three outcomes (`Reads X F`):

* `done` — it has advanced over a word of `X`, and the current token is one that may follow (`F`);
* `unread` — the next token cannot be read, and what came before starts a word of `X`;
* `rejected` — what it advanced over starts a word of `X`, and with the current token it does not
  any more, whatever follows. The diagnostic is placed at that token, and if it names the kind it
  needed, a token of that kind would do.

The outcomes compose: `Reads.andThen` for sequences, `Reads.map` for values, `Reads.imp` for a
language that the current token narrows down, `reads_current` and `reads_expect` for one token.
-/

namespace Abacus

namespace Lang

variable {α β : Type}

/-- The empty word. -/
def pure (a : α) : Lang α := fun w b => w = [] ∧ b = a

/-- One terminal of a kind; the tree is its text. -/
def token (k : TokenKind) : Lang String := fun w s => w = [⟨k, s⟩]

/-- The words of `Y` after one terminal. -/
def cons (t : Terminal) (Y : Lang β) : Lang β := fun w b => ∃ v, Y v b ∧ w = t :: v

/-- The same words with other trees. -/
def map (f : α → β) (X : Lang α) : Lang β := fun w b => ∃ a, X w a ∧ b = f a

/-- A word and then another. -/
def bind (X : Lang α) (Y : α → Lang β) : Lang β :=
  fun w b => ∃ u v a, X u a ∧ Y a v b ∧ w = u ++ v

/-- There is a word. -/
class Populated (X : Lang α) : Prop where
  word : ∃ w a, X w a

instance (a : α) : Populated (pure a) := ⟨[], a, rfl, rfl⟩

instance (k : TokenKind) : Populated (token k) := ⟨[⟨k, ""⟩], "", rfl⟩

instance (f : α → β) (X : Lang α) [hX : Populated X] : Populated (map f X) := by
  obtain ⟨w, a, ha⟩ := hX.word
  exact ⟨w, f a, a, ha, rfl⟩

instance (X : Lang α) (Y : α → Lang β) [hX : Populated X] [hY : ∀ a, Populated (Y a)] :
    Populated (bind X Y) := by
  obtain ⟨u, a, ha⟩ := hX.word
  obtain ⟨v, b, hb⟩ := (hY a).word
  exact ⟨u ++ v, b, u, v, a, ha, hb, rfl⟩

theorem bind_pure (X : Lang α) : X.bind pure = X := by
  funext w a
  refine propext ⟨?_, fun h => ⟨w, [], a, h, ⟨rfl, rfl⟩, by simp⟩⟩
  rintro ⟨u, _, a', hu, ⟨rfl, rfl⟩, rfl⟩
  simpa using hu

theorem bind_assoc {γ : Type} (X : Lang α) (Y : α → Lang β) (Z : β → Lang γ) :
    (X.bind Y).bind Z = X.bind fun a => (Y a).bind Z := by
  funext w c
  refine propext ⟨?_, ?_⟩
  · rintro ⟨_, z, b, ⟨x, y, a, hx, hy, rfl⟩, hz, rfl⟩
    exact ⟨x, y ++ z, a, hx, ⟨y, z, b, hy, hz, rfl⟩, List.append_assoc x y z⟩
  · rintro ⟨x, _, a, hx, ⟨y, z, b, hy, hz, rfl⟩, rfl⟩
    exact ⟨x ++ y, z, b, ⟨x, y, a, hx, hy, rfl⟩, hz, (List.append_assoc x y z).symm⟩

end Lang

namespace Grammar

variable {α β : Type} {F G : TokenKind → Prop} {X : Lang α} {Y : α → Lang β}

theorem token_forced {k : TokenKind} ⦃w : List Terminal⦄ ⦃s : String⦄ (h : Lang.token k w s) :
    Forced F (Lang.token k) w s := by
  subst h
  rintro w' s' r r' rfl heq _ _
  simp only [List.cons_append, List.cons.injEq, Terminal.mk.injEq, true_and] at heq
  obtain ⟨rfl, -⟩ := heq
  exact ⟨rfl, rfl⟩

/-- Some word of `X` starts with `w`. -/
def Begins (X : Lang α) (w : List Terminal) : Prop := ∃ u a, X (w ++ u) a

/-- No word of `X` and what may follow it start with `w`. -/
def Stuck (F : TokenKind → Prop) (X : Lang α) (w : List Terminal) : Prop :=
  ∀ ⦃u a r⦄, X u a → Opens F r → ¬ w <+: u ++ r

theorem begins_nil [hX : X.Populated] : Begins X [] := hX.word

theorem Begins.bind [hY : ∀ a, (Y a).Populated] {w : List Terminal} (h : Begins X w) :
    Begins (X.bind Y) w := by
  obtain ⟨u, a, ha⟩ := h
  obtain ⟨v, b, hb⟩ := (hY a).word
  exact ⟨u ++ v, b, w ++ u, v, a, ha, hb, by simp⟩

theorem Begins.bind_right {w v : List Terminal} {a : α} (ha : X w a) (h : Begins (Y a) v) :
    Begins (X.bind Y) (w ++ v) := by
  obtain ⟨u, b, hb⟩ := h
  exact ⟨u, b, w, v ++ u, a, ha, hb, by simp⟩

theorem Begins.map {f : α → β} {w : List Terminal} (h : Begins X w) : Begins (X.map f) w := by
  obtain ⟨u, a, ha⟩ := h
  exact ⟨u, f a, a, ha, rfl⟩

/-- What follows a word of `X` in a sequence opens with a kind in `F`. -/
def Follows (F G : TokenKind → Prop) (Y : α → Lang β) : Prop :=
  ∀ ⦃a v b r⦄, Y a v b → Opens G r → Opens F (v ++ r)

theorem follows_anyKind : Follows anyKind G Y := fun _ _ _ _ _ _ => opens_anyKind _

theorem Stuck.bind (hY : Follows F G Y) {w : List Terminal} (h : Stuck F X w) :
    Stuck G (X.bind Y) w := by
  rintro _ b r ⟨u, v, a, ha, hb, rfl⟩ hr hpre
  rw [List.append_assoc] at hpre
  exact h ha (hY hb hr) hpre

theorem Stuck.bind_right (hY : Follows F G Y) {w v : List Terminal} {t : Terminal} {a : α}
    (hw : Forced F X w a) (ht : F t.kind) (h : Stuck G (Y a) (t :: v)) :
    Stuck G (X.bind Y) (w ++ t :: v) := by
  rintro _ b r ⟨u', v', a', ha', hb, rfl⟩ hr ⟨z, hz⟩
  simp only [List.append_assoc] at hz
  -- both readings split the text after `w`, because `w` is forced
  obtain ⟨rfl, rfl⟩ := hw ha' hz (opens_cons.mpr ht) (hY hb hr)
  exact h hb hr ⟨z, List.append_cancel_left hz⟩

theorem Stuck.map {f : α → β} {w : List Terminal} (h : Stuck F X w) : Stuck F (X.map f) w := by
  rintro u _ r ⟨a, ha, rfl⟩ hr
  exact h ha hr

end Grammar

namespace Parser

open Grammar

variable {α β : Type} {F G : TokenKind → Prop} {X : Lang α} {Y : α → Lang β}
  {p q r : Parser} {us : List Token}

/-- The diagnostic concerns the current token, and `X` can go on after `us` with the kind it
names. -/
structure Blames (X : Lang α) (us : List Token) (q : Parser) (d : Diagnostic) : Prop where
  position : d.position = q.position
  phase : d.fault.phase = .syntactic
  expected : ∀ k received, d.fault = .unexpected k received →
    received = q.kind ∧ ∀ lexeme, Begins X (terminals us ++ [⟨k, lexeme⟩])

/-- **The outcomes of a production** that reads `X` and is followed by `F`. -/
inductive Reads (X : Lang α) (F : TokenKind → Prop) (p : Parser) :
    Attempt Diagnostic Parser α → Prop
  | done {us : List Token} {q : Parser} {a : α} (hm : Moves p us q) (ha : X (terminals us) a)
      (hF : F q.kind) : Reads X F p (.ok a, q)
  | unread {us : List Token} {q q' : Parser} {d : Diagnostic} (hm : Moves p us q)
      (hk : q.kind ≠ .eof) (hd : q.advance = (.error d, q'))
      (hb : Begins X (terminals (us ++ [q.current]))) : Reads X F p (.error d, q')
  | rejected {us : List Token} {q : Parser} {d : Diagnostic} (hm : Moves p us q)
      (hb : Begins X (terminals us)) (hs : Stuck F X (terminals (us ++ [q.current])))
      (hd : Blames X us q d) : Reads X F p (.error d, q)

theorem Moves.head (h : Moves p us q) : ∃ vs, us ++ [q.current] = p.current :: vs := by
  cases h with
  | refl => exact ⟨[], rfl⟩
  | step => exact ⟨_, rfl⟩

/-! ## Composition -/

/-- The current token narrows a language down. -/
theorem Reads.imp {Y : Lang α} {a : Attempt Diagnostic Parser α} (h : Reads X F p a)
    (hXY : ∀ ⦃u x⦄, X u x → Y u x)
    (hYX : ∀ ⦃u y r v⦄, Y u y → Opens G r → u ++ r = p.current.terminal :: v →
      (∃ x, X u x) ∧ Opens F r)
    (hFG : ∀ k, F k → G k) : Reads Y G p a := by
  have hbegins : ∀ {w}, Begins X w → Begins Y w := fun ⟨u, x, hx⟩ => ⟨u, x, hXY hx⟩
  cases h with
  | done hm ha hF => exact .done hm (hXY ha) (hFG _ hF)
  | unread hm hk hd hb => exact .unread hm hk hd (hbegins hb)
  | rejected hm hb hs hd =>
    refine .rejected hm (hbegins hb) ?_ ⟨hd.position, hd.phase, fun k received he => ?_⟩
    · rintro u y r hy hr hpre
      obtain ⟨vs, hvs⟩ := hm.head
      rw [hvs] at hs hpre
      obtain ⟨z, hz⟩ := id hpre
      obtain ⟨⟨x, hx⟩, hF⟩ := hYX hy hr hz.symm
      exact hs hx hF hpre
    · obtain ⟨hr, hb⟩ := hd.expected k received he
      exact ⟨hr, fun lexeme => hbegins (hb lexeme)⟩

/-- **Sequences.** After a forced word of `X` the outcome is that of what comes next. -/
theorem Reads.andThen {a : Attempt Diagnostic Parser α}
    {f : α → Parser → Attempt Diagnostic Parser β} (h : Reads X F p a)
    (hX : ∀ ⦃w x⦄, X w x → Forced F X w x) [hpop : ∀ x, (Y x).Populated] (hY : Follows F G Y)
    (hf : ∀ ⦃us x q⦄, a = (.ok x, q) → Moves p us q → X (terminals us) x → F q.kind →
      Reads (Y x) G q (f x q)) :
    Reads (X.bind Y) G p (a.andThen f) := by
  cases h with
  | unread hm hk hd hb => exact .unread hm hk hd hb.bind
  | rejected hm hb hs hd =>
    refine .rejected hm hb.bind (hs.bind hY) ⟨hd.position, hd.phase, fun k received he => ?_⟩
    obtain ⟨hr, hb⟩ := hd.expected k received he
    exact ⟨hr, fun lexeme => (hb lexeme).bind⟩
  | @done us q x hm hx hF =>
    rw [Attempt.andThen_ok]
    have hnext := hf rfl hm hx hF
    -- the second part starts at the token that follows the first
    cases hfx : f x q with
    | mk answer left =>
    rw [hfx] at hnext
    cases hnext with
    | @done vs _ b hm' hb hG =>
      exact .done (hm.trans hm') ⟨_, _, x, hx, hb, List.map_append⟩ hG
    | @unread vs q' _ d hm' hk hd hb =>
      refine .unread (hm.trans hm') hk hd ?_
      rw [List.append_assoc, terminals, List.map_append]
      exact Begins.bind_right hx hb
    | @rejected vs _ d hm' hb hs hd =>
      refine .rejected (hm.trans hm') ?_ ?_ ⟨hd.position, hd.phase, fun k received he => ?_⟩
      · rw [terminals, List.map_append]
        exact Begins.bind_right hx hb
      · obtain ⟨zs, hzs⟩ := hm'.head
        rw [List.append_assoc, terminals, List.map_append, hzs]
        rw [hzs] at hs
        exact Stuck.bind_right hY (hX hx) hF hs
      · obtain ⟨hr, hb⟩ := hd.expected k received he
        refine ⟨hr, fun lexeme => ?_⟩
        rw [terminals, List.map_append, List.append_assoc]
        exact Begins.bind_right hx (hb lexeme)

theorem Reads.map {a : Attempt Diagnostic Parser α} (f : α → β) (h : Reads X F p a) :
    Reads (X.map f) F p (a.andThen fun x q => (.ok (f x), q)) := by
  cases h with
  | done hm ha hF => exact .done hm ⟨_, ha, rfl⟩ hF
  | unread hm hk hd hb => exact .unread hm hk hd hb.map
  | rejected hm hb hs hd =>
    refine .rejected hm hb.map hs.map ⟨hd.position, hd.phase, fun k received he => ?_⟩
    obtain ⟨hr, hb⟩ := hd.expected k received he
    exact ⟨hr, fun lexeme => (hb lexeme).map⟩

/-! ## One token -/

theorem reads_pure (a : α) (p : Parser) : Reads (Lang.pure a) anyKind p (.ok a, p) :=
  .done (.refl p) ⟨rfl, rfl⟩ trivial

/-- Advancing reads the current terminal. -/
theorem reads_current {Y : Lang β} [hY : Y.Populated]
    {f : Token → Parser → Attempt Diagnostic Parser β} (hk : p.kind ≠ .eof)
    (hf : ∀ ⦃q⦄, p.advance = (.ok p.current, q) → Reads Y G q (f p.current q)) :
    Reads (Y.cons p.current.terminal) G p (p.advance.andThen f) := by
  cases ha : p.advance with
  | mk answer q =>
  cases answer with
  | error d =>
    obtain ⟨v, b, hb⟩ := hY.word
    exact .unread (.refl p) hk ha ⟨v, b, v, hb, rfl⟩
  | ok t =>
    obtain ⟨rfl, -, -⟩ := advance_ok_iff.mp ha
    rw [Attempt.andThen_ok]
    have hnext := hf ha
    cases hfx : f p.current q with
    | mk answer left =>
    rw [hfx] at hnext
    cases hnext with
    | done hm hb hG => exact .done (.step hk ha hm) ⟨_, hb, rfl⟩ hG
    | unread hm hk' hd hb =>
      obtain ⟨u, b, hu⟩ := hb
      exact .unread (.step hk ha hm) hk' hd ⟨u, b, _, hu, rfl⟩
    | rejected hm hb hs hd =>
      obtain ⟨u, b, hu⟩ := hb
      refine .rejected (.step hk ha hm) ⟨u, b, _, hu, rfl⟩ ?_ ⟨hd.position, hd.phase, ?_⟩
      · rintro _ b r ⟨v, hv, rfl⟩ hr hpre
        exact hs hv hr (List.cons_prefix_cons.mp hpre).2
      · intro k received he
        obtain ⟨hr, hb⟩ := hd.expected k received he
        refine ⟨hr, fun lexeme => ?_⟩
        obtain ⟨u, b, hu⟩ := hb lexeme
        exact ⟨u, b, _, hu, rfl⟩

theorem reads_unexpected {X : Lang α} (message : String) (hb : Begins X [])
    (hs : Stuck F X [p.current.terminal]) : Reads X F p (.error (p.unexpected message), p) :=
  .rejected (.refl p) hb hs ⟨rfl, rfl, nofun⟩

/-- Expecting a kind reads one terminal of it. -/
theorem reads_expect {k : TokenKind} {Y : String → Lang β}
    {f : Token → Parser → Attempt Diagnostic Parser β} (hk : k ≠ .eof)
    [hpop : ∀ s, (Y s).Populated]
    (hf : ∀ ⦃q⦄, p.kind = k → p.advance = (.ok p.current, q) →
      Reads (Y p.current.lexeme) G q (f p.current q)) :
    Reads ((Lang.token k).bind Y) G p ((p.expect k).andThen f) := by
  unfold expect expectOr
  by_cases h : p.kind = k
  · subst h
    rw [if_pos rfl]
    refine (reads_current hk fun q ha => hf rfl ha).imp ?_ ?_ fun _ hG => hG
    · rintro _ b ⟨v, hv, rfl⟩
      exact ⟨[p.current.terminal], v, p.current.lexeme, rfl, hv, rfl⟩
    · rintro _ b r z ⟨_, v, s, rfl, hv, rfl⟩ hr hz
      simp only [List.cons_append, List.nil_append, List.cons.injEq] at hz
      obtain ⟨hs, -⟩ := hz
      obtain rfl : s = p.current.lexeme := congrArg Terminal.lexeme hs
      exact ⟨⟨b, v, hv, rfl⟩, hr⟩
  · rw [if_neg h]
    refine .rejected (.refl p) begins_nil ?_ ⟨rfl, rfl, fun k' received he => ?_⟩
    · rintro _ b r ⟨u, v, s, rfl, -, rfl⟩ - ⟨z, hz⟩
      simp only [List.nil_append, List.map_cons, List.map_nil, List.cons_append,
        List.cons.injEq] at hz
      exact h (congrArg Terminal.kind hz.1)
    · simp only [mismatch, Fault.unexpected.injEq] at he
      obtain ⟨rfl, rfl⟩ := he
      exact ⟨rfl, fun lexeme => Begins.bind ⟨[], lexeme, rfl⟩⟩

end Parser

end Abacus
