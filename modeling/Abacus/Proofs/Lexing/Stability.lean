import Abacus.Proofs.Lexing.Segmentation
import Abacus.Proofs.Lexing.Watching

/-!
# Lexers that are called again

A lexer is kept after it has failed or met the end, and may be called again. `Steady l` says what
the calls from `l` on can do:

* A failure moves over blanks only and hands nothing to the watcher. After it every call fails in
  the same way and changes nothing.
* Once the end is met, every call hands out the same end.
* Each token other than the end moves the lexer by a byte or more.

A new lexer stands at a cursor, and calls keep that (`Pulls.exists_at`). So what a cursor does once
carries over to a lexer after any calls (`pulls_steady`).
-/

namespace Abacus

open Text

namespace Lexer

variable {l l' l'' : Lexer} {c : Cursor} {t : Token} {d : Diagnostic} {ts : List Token}

/-! ## One call -/

theorem text_record (l : Lexer) (t : Token) : (l.record t).text = l.text := by
  unfold record
  split <;> rfl

theorem text_of_next {a : Except Diagnostic Token} (h : l.next = some (a, l')) :
    l'.text = l.text := by
  obtain ⟨c, -, hc⟩ := Option.map_eq_some_iff.mp h
  split at hc
  · cases hc
    exact text_record _ _
  · cases hc
    rfl

/-- A lexer answers what the cursor at its place answers. -/
theorem At.of_next {a : Except Diagnostic Token} (h : l.At c) (hn : l.next = some (a, l')) :
    c.next = (a, c.next.2) ∧ l'.At c.next.2 := by
  obtain ⟨l'', hn', hat⟩ := h.next
  cases hn'.symm.trans hn
  exact ⟨rfl, hat⟩

theorem At.next_of_error (h : l.At c) {c' : Cursor} (hn : c.next = (.error d, c')) :
    l.next = some (.error d, { l with offset := c'.offset }) := by
  rw [Lexer.next, h.cursor?, Option.map_some, hn]

theorem At.offset_le (h : l.At c) : l.offset ≤ byteLength l.text := by
  obtain ⟨before, htext, hbefore⟩ := h.text
  rw [htext, byteLength_append, hbefore]
  exact Nat.le_add_right _ _

/-- No call moves back, and a token other than the end takes a byte or more. -/
theorem At.offset_of_next {a : Except Diagnostic Token} (h : l.At c)
    (hn : l.next = some (a, l')) :
    l.offset ≤ l'.offset ∧ ∀ t, a = .ok t → t.kind ≠ .eof → l.offset < l'.offset := by
  obtain ⟨hc, hat⟩ := h.of_next hn
  obtain ⟨chars, hrest, hoffset, -⟩ := c.exists_rest_eq_append
  rw [← h.offset, ← hat.offset, hoffset]
  refine ⟨Nat.le_add_right _ _, ?_⟩
  rintro t rfl hk
  have hlt := (Cursor.next_length hc).resolve_right fun heof => hk heof.1
  have hchars : chars ≠ [] := by
    rintro rfl
    rw [hrest, List.nil_append] at hlt
    exact Nat.lt_irrefl _ hlt
  have hpos : byteLength chars ≠ 0 := mt byteLength_eq_zero.mp hchars
  omega

/-! ## Any number of calls -/

theorem Pulls.exists_at (h : l.Pulls ts l') (hl : ∃ c, l.At c) : ∃ c, l'.At c := by
  induction h with
  | refl => exact hl
  | took _ hn ih =>
    obtain ⟨c, hc⟩ := ih
    exact ⟨_, (hc.of_next hn).2⟩
  | stayed _ hn ih =>
    obtain ⟨c, hc⟩ := ih
    exact ⟨_, (hc.of_next hn).2⟩

theorem Pulls.text (h : l.Pulls ts l') : l'.text = l.text := by
  induction h with
  | refl => rfl
  | took _ hn ih => rw [text_of_next hn, ih]
  | stayed _ hn ih => rw [text_of_next hn, ih]

/-- **Every token but the end takes a byte or more.** -/
theorem Pulls.offset_add_count (h : l.Pulls ts l') (hl : ∃ c, l.At c) :
    l.offset + ts.countP (·.kind ≠ .eof) ≤ l'.offset := by
  induction h with
  | refl => exact Nat.le_refl _
  | @took ts l' l'' t hp hn ih =>
    obtain ⟨c, hc⟩ := hp.exists_at hl
    obtain ⟨hle, hlt⟩ := hc.offset_of_next hn
    rw [List.countP_append, List.countP_singleton]
    split
    case isTrue hk =>
      have := hlt t rfl (of_decide_eq_true hk)
      omega
    case isFalse => omega
  | stayed hp hn ih =>
    obtain ⟨c, hc⟩ := hp.exists_at hl
    have := (hc.offset_of_next hn).1
    omega

/-- A lexer whose failure changes nothing stays as it is. -/
theorem Pulls.eq_of_stuck (h : l.Pulls ts l') (hl : l.next = some (.error d, l)) : l' = l := by
  induction h with
  | refl => rfl
  | took _ hn ih =>
    rw [ih] at hn
    cases hl.symm.trans hn
  | stayed _ hn ih =>
    rw [ih] at hn
    cases hl.symm.trans hn
    rfl

/-- A lexer at the end stays there. -/
theorem Pulls.at_of_rest_nil (h : l.Pulls ts l') (hl : l.At c) (hrest : c.rest = []) :
    l'.At c := by
  have hend := Cursor.next_of_rest_nil hrest
  induction h with
  | refl => exact hl
  | took _ hn ih =>
    have hat := (ih.of_next hn).2
    rwa [hend] at hat
  | stayed _ hn ih =>
    have hat := (ih.of_next hn).2
    rwa [hend] at hat

/-! ## Failures and the end -/

/-- A failure is placed after the blanks, and changes nothing else. -/
theorem At.of_next_error (h : l.At c) (hn : l.next = some (.error d, l')) :
    ∃ before blanks after, l.text = before ++ (blanks ++ after) ∧ byteLength before = l.offset ∧
      Blank blanks ∧ l' = l.advance (byteLength blanks) ∧ d.position = l'.position := by
  obtain ⟨hc, -⟩ := h.of_next hn
  obtain ⟨_, _, fault, -, -, rfl, hskip⟩ := Cursor.of_next_error hc
  obtain ⟨before, htext, hbefore⟩ := h.text
  obtain rfl : l' = { l with offset := c.skipBlanks.offset } := by
    cases (h.next_of_error hc).symm.trans hn
    rw [hskip]
  refine ⟨before, c.rest.takeWhile isBlank, c.rest.dropWhile isBlank, ?_, hbefore, ?_, ?_, ?_⟩
  · rw [List.takeWhile_append_dropWhile]
    exact htext
  · intro b hb
    exact List.mem_takeWhile_imp hb
  · rw [advance, ← h.offset]
    rfl
  · rw [Lexer.position, ← h.file]
    rfl

theorem At.next_of_next_error (h : l.At c) (hn : l.next = some (.error d, l')) :
    l'.next = some (.error d, l') := by
  obtain ⟨hc, hat⟩ := h.of_next hn
  have hagain := hat.next_of_error (Cursor.next_of_next_error hc)
  rwa [hat.offset] at hagain

/-- The end has no text and stands behind the last byte. -/
theorem At.of_next_eof (h : l.At c) (hn : l.next = some (.ok t, l')) (hk : t.kind = .eof) :
    t = ⟨.eof, "", Span.ofLength l.file (byteLength l.text) 0⟩ ∧
      ∃ c', c'.rest = [] ∧ l'.At c' ∧ t = c'.token .eof [] := by
  obtain ⟨hc, hat⟩ := h.of_next hn
  have hrest := Cursor.rest_of_next_eof hc hk
  have ht := Cursor.eq_token_of_next_eof hc hk
  refine ⟨?_, _, hrest, hat, ht⟩
  obtain ⟨before, htext, hbefore⟩ := hat.text
  obtain ⟨-, -, -, hfile⟩ := c.exists_rest_eq_append
  rw [hrest, List.append_nil, text_of_next hn] at htext
  rw [ht, Cursor.token, hfile, h.file, hat.offset, ← hbefore, ← htext]
  rfl

/-! ## Calls from any state -/

/-- **What the calls from a lexer on can do.** -/
structure Steady (l : Lexer) : Prop where
  /-- Every call answers. -/
  answers : ∃ answer l', l.next = some (answer, l')
  /-- A failure moves over blanks to the place that it reports, and changes nothing else. -/
  failure : ∀ d l', l.next = some (.error d, l') →
    ∃ before blanks after, l.text = before ++ (blanks ++ after) ∧ byteLength before = l.offset ∧
      Blank blanks ∧ l' = l.advance (byteLength blanks) ∧ d.position = l'.position
  /-- Nothing is recorded at a failure. -/
  unobserved : ∀ d l', l.next = some (.error d, l') → l'.observed = l.observed
  /-- Every call after a failure fails in the same way, and moves nothing. -/
  failsAgain : ∀ d l', l.next = some (.error d, l') →
    ∀ ts l'', l'.Pulls ts l'' → l'' = l' ∧ l''.next = some (.error d, l'')
  /-- Every call after the end hands out the same end, which is empty and stands behind the text. -/
  endsAgain : ∀ t l', l.next = some (.ok t, l') → t.kind = .eof →
    t = ⟨.eof, "", Span.ofLength l.file (byteLength l.text) 0⟩ ∧
      ∀ ts l'', l'.Pulls ts l'' → ∃ again, l''.next = some (.ok t, again)
  /-- The calls that hand out a token other than the end move on by a byte or more each. -/
  moves : ∀ ts l', l.Pulls ts l' → l.offset + ts.countP (·.kind ≠ .eof) ≤ l'.offset

theorem At.steady (h : l.At c) : l.Steady where
  answers := by
    obtain ⟨l', hn, -⟩ := h.next
    exact ⟨_, l', hn⟩
  failure _ _ hn := h.of_next_error hn
  unobserved _ _ hn := (observed_of_next_error hn).1
  failsAgain d l' hn ts l'' hp := by
    have hstuck := h.next_of_next_error hn
    obtain rfl := hp.eq_of_stuck hstuck
    exact ⟨rfl, hstuck⟩
  endsAgain t l' hn hk := by
    obtain ⟨ht, c', hrest, hat, htoken⟩ := h.of_next_eof hn hk
    refine ⟨ht, fun ts l'' hp => ?_⟩
    obtain ⟨again, hn', -⟩ := (hp.at_of_rest_nil hat hrest).next
    rw [Cursor.next_of_rest_nil hrest, ← htoken] at hn'
    exact ⟨again, hn'⟩
  moves _ _ hp := hp.offset_add_count ⟨c, h⟩

/-- **Failures and the end are stable.** A lexer that starts a text, watched or not, is steady after
any calls, and hands out at most as many tokens before the end as the text has bytes. -/
theorem pulls_steady (hl : l.offset = 0) (h : l.Pulls ts l') :
    l'.Steady ∧ ts.countP (·.kind ≠ .eof) ≤ byteLength l.text := by
  have hstart : l.At ⟨l.file, 0, l.text⟩ := ⟨rfl, hl.symm, [], rfl, hl.symm⟩
  obtain ⟨c, hat⟩ := h.exists_at ⟨_, hstart⟩
  refine ⟨hat.steady, ?_⟩
  have hcount := h.offset_add_count ⟨_, hstart⟩
  have hle := hat.offset_le
  rw [h.text] at hle
  omega

/-- A watched lexer that has read a word and then failed, after blanks of one and three bytes, at a
numeral with two dots. -/
theorem pulls_steady_numeral :
    ∃ l', ((ofText "x 　 1.2.3" none).watch "seen").Pulls
        [⟨.ident, "x", ⟨0, 1, "shell"⟩⟩] l' ∧ l'.offset = 6 ∧ l'.Steady ∧
      l'.next = some (.error ⟨.malformedNumeral "1.2.3", ⟨6, "shell"⟩⟩, l') := by
  have hword : ((ofText "x 　 1.2.3" none).watch "seen").next =
      some (.ok ⟨.ident, "x", ⟨0, 1, "shell"⟩⟩,
        ⟨"shell", "x 　 1.2.3".toList, 1, some "seen",
          #[("seen", ⟨.ident, "x", ⟨0, 1, "shell"⟩⟩)]⟩) := by rfl
  have hfail : Lexer.next ⟨"shell", "x 　 1.2.3".toList, 1, some "seen",
        #[("seen", ⟨.ident, "x", ⟨0, 1, "shell"⟩⟩)]⟩ =
      some (.error ⟨.malformedNumeral "1.2.3", ⟨6, "shell"⟩⟩,
        ⟨"shell", "x 　 1.2.3".toList, 6, some "seen",
          #[("seen", ⟨.ident, "x", ⟨0, 1, "shell"⟩⟩)]⟩) := by rfl
  have hread := Pulls.took .refl hword
  have hfailed := hread.stayed hfail
  refine ⟨_, hfailed, rfl, (pulls_steady rfl hfailed).1, ?_⟩
  exact ((pulls_steady rfl hread).1.failsAgain _ _ hfail [] _ .refl).2

end Lexer

end Abacus
