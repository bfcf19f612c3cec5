import Abacus.Proofs.Writing.Spelling
import Abacus.Proofs.Lexing.Numerals
import Abacus.Token.Lexer

/-!
# Lexers in step with cursors

A lexer keeps the whole text and a byte offset, a cursor the rest of the text. `Lexer.At l c` says
that they stand at the same place. Then the next token of the one is that of the other, and they
stand at the same place again (`Lexer.At.next`).

`Lexer.Pulls l ts l'` is a series of calls on a lexer that hand out the tokens `ts`. A lexer that is
watched meanwhile has recorded exactly these (`Lexer.Pulls.observed`).

A failure changes nothing but the blanks before it: the next call fails in the same way and leaves
the cursor where it is (`Cursor.next_of_next_error`).
-/

namespace Abacus

open Text

namespace Cursor

variable {c c' : Cursor} {d : Diagnostic}

/-! ## Failures repeat -/

theorem skipBlanks_skipBlanks (c : Cursor) : c.skipBlanks.skipBlanks = c.skipBlanks := by
  have hhead := head?_dropWhile_eq_false isBlank c.rest
  unfold skipBlanks
  simp only
  cases hrest : c.rest.dropWhile isBlank with
  | nil => simp
  | cons ch rest =>
    rw [hrest] at hhead
    have hblank : ¬ isBlank ch = true := by rw [hhead ch rfl]; exact Bool.false_ne_true
    rw [List.takeWhile_cons_of_neg hblank, List.dropWhile_cons_of_neg hblank, byteLength_nil,
      Nat.add_zero]

theorem next_skipBlanks (c : Cursor) : c.skipBlanks.next = c.next := by
  simp only [next, skipBlanks_skipBlanks]

theorem eq_skipBlanks_of_next_error (h : c.next = (.error d, c')) : c' = c.skipBlanks := by
  obtain ⟨_, _, _, -, -, -, hc⟩ := of_next_error h
  exact hc

/-- **A failure repeats**, and the cursor stays. -/
theorem next_of_next_error (h : c.next = (.error d, c')) : c'.next = (.error d, c') := by
  rw [eq_skipBlanks_of_next_error h, next_skipBlanks, h, eq_skipBlanks_of_next_error h]

/-! ## Places -/

/-- The cursor moves over characters of the rest, and counts their bytes. -/
theorem exists_rest_eq_append (c : Cursor) : ∃ chars, c.rest = chars ++ c.next.2.rest ∧
    c.next.2.offset = c.offset + byteLength chars ∧ c.next.2.file = c.file := by
  have hskip : c.rest = c.rest.takeWhile isBlank ++ c.skipBlanks.rest :=
    List.takeWhile_append_dropWhile.symm
  rcases c.next_cases with ⟨-, hn⟩ | ⟨ch, rest, _, chars, hrest, hlex, hn⟩ | ⟨_, _, _, -, -, hn⟩
  · rw [hn]
    exact ⟨_, hskip, rfl, rfl⟩
  · -- the lexeme stands in front of what is left after the blanks
    have hprefix : chars <+: c.skipBlanks.rest := by
      rw [lexeme_chars hlex, hrest]
      exact (List.prefix_cons_inj ch).mpr (List.takeWhile_prefix _)
    rw [hn]
    refine ⟨c.rest.takeWhile isBlank ++ chars, ?_, ?_, rfl⟩
    · rw [past, List.append_assoc, List.prefix_iff_eq_append.mp hprefix]
      exact hskip
    · rw [byteLength_append, ← Nat.add_assoc]
      rfl
  · rw [hn]
    exact ⟨_, hskip, rfl, rfl⟩

/-- The cursor after `n` calls of `next`. -/
def after (c : Cursor) : Nat → Cursor
  | 0 => c
  | n + 1 => c.next.2.after n

theorem after_succ (c : Cursor) (n : Nat) : c.after (n + 1) = (c.after n).next.2 := by
  induction n generalizing c with
  | zero => rfl
  | succ n ih => exact ih c.next.2

end Cursor

namespace Lexer

/-- What the call of `next` answers that comes after `n` others. -/
def answer? (l : Lexer) : Nat → Option (Except Diagnostic Token)
  | 0 => l.next.map Prod.fst
  | n + 1 => l.next.bind fun a => a.2.answer? n

/-- The lexer stands at the place of the cursor. -/
structure At (l : Lexer) (c : Cursor) : Prop where
  file : c.file = l.file
  offset : c.offset = l.offset
  text : ∃ before, l.text = before ++ c.rest ∧ byteLength before = l.offset

variable {l l' : Lexer} {c c' : Cursor} {t : Token} {d : Diagnostic}

theorem at_ofText (text : String) (file : Option String) :
    (ofText text file).At (Cursor.ofText text file) :=
  ⟨rfl, rfl, [], rfl, rfl⟩

theorem At.watch (h : l.At c) (label : String) : (l.watch label).At c := ⟨h.file, h.offset, h.text⟩

theorem At.record (h : l.At c) (t : Token) : (l.record t).At c := by
  unfold Lexer.record
  split
  · exact ⟨h.file, h.offset, h.text⟩
  · exact h

theorem byteLength_eq_zero {chars : List Char} : byteLength chars = 0 ↔ chars = [] := by
  cases chars with
  | nil => simp
  | cons ch chars =>
    have hpos := Char.utf8Size_pos ch
    simp only [byteLength_cons, reduceCtorEq, iff_false]
    omega

theorem At.cursor? (h : l.At c) : l.cursor? = some c := by
  obtain ⟨file, offset, rest⟩ := c
  obtain ⟨before, htext, hbefore⟩ := h.text
  obtain rfl : file = l.file := h.file
  obtain rfl : offset = l.offset := h.offset
  replace htext : l.text = before ++ rest := htext
  have hend : l.atEnd = true ↔ rest = [] := by
    rw [atEnd, decide_eq_true_iff, htext, byteLength_append, hbefore, ← byteLength_eq_zero]
    omega
  unfold Lexer.cursor?
  by_cases hrest : rest = []
  · rw [if_pos (hend.mpr hrest), hrest]
  · rw [if_neg fun hat => hrest (hend.mp hat), htext, ← hbefore, dropBytes?_append]
    rfl

/-- Lexer and cursor move together. -/
theorem At.move (h : l.At c) : At { l with offset := c.next.2.offset } c.next.2 := by
  obtain ⟨before, htext, hbefore⟩ := h.text
  obtain ⟨chars, hrest, hoffset, hfile⟩ := c.exists_rest_eq_append
  refine ⟨hfile.trans h.file, rfl, before ++ chars, ?_, ?_⟩
  · rw [List.append_assoc, ← hrest]
    exact htext
  · rw [byteLength_append, hbefore, ← h.offset]
    exact hoffset.symm

theorem At.next (h : l.At c) : ∃ l', l.next = some (c.next.1, l') ∧ l'.At c.next.2 := by
  have hmove := h.move
  rw [Lexer.next, h.cursor?, Option.map_some]
  generalize c.next = a at hmove
  obtain ⟨_ | t, c'⟩ := a
  · exact ⟨_, rfl, hmove⟩
  · exact ⟨_, rfl, hmove.record t⟩

theorem At.answer? (h : l.At c) (n : Nat) : l.answer? n = some (c.after n).next.1 := by
  induction n generalizing l c with
  | zero =>
    obtain ⟨l', hl, -⟩ := h.next
    rw [Lexer.answer?, hl]
    rfl
  | succ n ih =>
    obtain ⟨l', hl, hat⟩ := h.next
    rw [Lexer.answer?, hl, Option.bind_some, ih hat]
    rfl

/-! ## Records -/

/-- `l` becomes `l'` by calls of `next`, which hand out the tokens `ts`. A call that fails hands out
none. -/
inductive Pulls (l : Lexer) : List Token → Lexer → Prop
  | refl : Pulls l [] l
  | took {ts : List Token} {l' l'' : Lexer} {t : Token} (h : Pulls l ts l')
      (hn : l'.next = some (.ok t, l'')) : Pulls l (ts ++ [t]) l''
  | stayed {ts : List Token} {l' l'' : Lexer} {d : Diagnostic} (h : Pulls l ts l')
      (hn : l'.next = some (.error d, l'')) : Pulls l ts l''

theorem record_of_watcher {label : String} (h : l.watcher = some label) (t : Token) :
    l.record t = { l with observed := l.observed.push (label, t) } := by
  rw [record, h]

theorem observed_of_next_ok {label : String} (hl : l.watcher = some label)
    (h : l.next = some (.ok t, l')) :
    l'.observed = l.observed.push (label, t) ∧ l'.watcher = some label := by
  obtain ⟨c, -, hc⟩ := Option.map_eq_some_iff.mp h
  split at hc
  · rename_i t' c' hn
    cases hc
    rw [record_of_watcher (l := { l with offset := c'.offset }) hl]
    exact ⟨rfl, hl⟩
  · cases hc

theorem observed_of_next_error (h : l.next = some (.error d, l')) :
    l'.observed = l.observed ∧ l'.watcher = l.watcher := by
  obtain ⟨c, -, hc⟩ := Option.map_eq_some_iff.mp h
  split at hc
  · cases hc
  · cases hc
    exact ⟨rfl, rfl⟩

/-- **A watched lexer has recorded what it handed out**, in order and nothing else. -/
theorem Pulls.observed {ts : List Token} {label : String} (h : l.Pulls ts l')
    (hl : l.watcher = some label) :
    l'.observed.toList = l.observed.toList ++ ts.map (label, ·) ∧ l'.watcher = some label := by
  induction h with
  | refl => exact ⟨by simp, hl⟩
  | took _ hn ih =>
    obtain ⟨hobserved, hwatcher⟩ := observed_of_next_ok ih.2 hn
    refine ⟨?_, hwatcher⟩
    rw [hobserved, Array.toList_push, ih.1, List.map_append, List.append_assoc]
    rfl
  | stayed _ hn ih =>
    obtain ⟨hobserved, hwatcher⟩ := observed_of_next_error hn
    exact ⟨hobserved ▸ ih.1, hwatcher.trans ih.2⟩

end Lexer

end Abacus
