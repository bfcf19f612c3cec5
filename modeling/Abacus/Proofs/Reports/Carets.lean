import Mathlib.Data.List.DropRight
import Abacus.Proofs.Lexing.Segmentation
import Abacus.Proofs.Lexing.Watching
import Abacus.Proofs.Reports.Lines
import Abacus.Proofs.Running.Places

/-!
# The caret stands under what offends

A failure of reading carries a byte offset. The report turns it into a line, takes the blanks off
the ends of the line, and draws a caret in a column counted in characters. Here the column is that
of the character that offends, in the line as it is shown.

* `Cursor.exists_standsAt` — a token stands in the text where its span starts, and its first
  character is no blank; so a failure is at such a character or at the end (`parse_error_place`).
* `Cut` — a line in its text, with the blanks at its ends apart. A character that is no blank lies
  between them (`Cut.Of.exists_body_eq`).
* `Pictures` — what a report with a place shows, with the bars in one column (`pictures_of_line`).
* `parse_report_points` — the caret of every failure of reading that has a place.
-/

namespace Abacus

open Abacus.Text

/-! ## Where tokens stand -/

/-- The token stands in the text after `pre`, and `post` follows it. Only the end of the text has no
characters, and no token starts with a blank. -/
structure Token.StandsAt (t : Token) (text pre post : List Char) : Prop where
  text_eq : text = pre ++ (t.lexeme.toList ++ post)
  start : t.span.start = (byteLength pre).toUInt32
  first : t.kind = .eof ∧ t.lexeme = "" ∧ post = [] ∨
    t.kind ≠ .eof ∧ ∃ ch cs, t.lexeme.toList = ch :: cs ∧ isBlank ch = false

namespace Cursor

variable {c c' : Cursor} {t : Token} {d : Diagnostic}

/-- The token of one call, where `before` is what the cursor has passed. -/
theorem standsAt_of_next {before : List Char} (hbefore : c.offset = byteLength before)
    (h : c.next = (.ok t, c')) : ∃ pre post, t.StandsAt (before ++ c.rest) pre post := by
  have hskip : c.rest = c.rest.takeWhile isBlank ++ c.skipBlanks.rest :=
    List.takeWhile_append_dropWhile.symm
  have hstart : c.skipBlanks.offset = byteLength (before ++ c.rest.takeWhile isBlank) := by
    rw [byteLength_append, ← hbefore]
    rfl
  by_cases ht : t.kind = .eof
  · obtain ⟨hrest, rfl, -⟩ := of_next_eof h ht
    refine ⟨before ++ c.rest.takeWhile isBlank, [], ?_, ?_, .inl ⟨rfl, rfl, rfl⟩⟩
    · rw [hrest, List.append_nil] at hskip
      rw [← hskip]
      exact (List.append_nil _).symm
    · rw [← hstart]
      rfl
  · obtain ⟨ch, rest, kind, chars, hrest, hlex, rfl, -⟩ := of_next_ok h ht
    obtain ⟨hchars, -, -⟩ := piece_of_lexeme hlex
    have hlexeme : (c.skipBlanks.token kind chars).lexeme.toList = chars := String.toList_ofList
    refine ⟨before ++ c.rest.takeWhile isBlank, rest.dropWhile (continues ch), ?_, ?_,
      .inr ⟨ht, ch, rest.takeWhile (continues ch), ?_, isBlank_of_lexeme hlex⟩⟩
    · rw [hlexeme, ← hchars, ← hrest, List.append_assoc, ← hskip]
    · rw [← hstart]
      rfl
    · rw [hlexeme, lexeme_chars hlex]

/-- **Every token stands where its span starts.** -/
theorem exists_standsAt {before : List Char} (hbefore : c.offset = byteLength before)
    (h : t ∈ c.produced) : ∃ pre post, t.StandsAt (before ++ c.rest) pre post := by
  fun_induction produced c generalizing before with
  | case1 => cases h
  | case2 c u c' hn hu =>
    obtain rfl := List.mem_singleton.mp h
    exact standsAt_of_next hbefore hn
  | case3 c u c' hn hu _ ih =>
    rcases List.mem_cons.mp h with rfl | h
    · exact standsAt_of_next hbefore hn
    · -- what the call passes goes to `before`
      obtain ⟨chars, hrest, hoffset, -⟩ := c.exists_rest_eq_append
      rw [hn] at hrest hoffset
      have hpassed : c'.offset = byteLength (before ++ chars) := by
        rw [byteLength_append, ← hbefore]
        exact hoffset
      rw [hrest, ← List.append_assoc]
      exact ih hpassed h

end Cursor

/-! ## Where reading fails -/

section Place

variable {text : String} {file : Option String} {d : Diagnostic}

/-- The character `ch` before `post` is the first one of what the failure is about: of the token
that offends, or of what cannot be read. -/
inductive Offending (text : String) (file : Option String) (d : Diagnostic) (ch : Char)
    (post : List Char) : Prop
  | token {before : List Token} {t : Token} {cs : List Char} (hstops : StopsAt text file d before t)
      (hlexeme : t.lexeme.toList = ch :: cs) (hpost : cs <+: post)
  | unread (hstops : StopsUnread text file d) (hlexeme : NoLexeme ch post d.fault)

/-- The end of the text offends. -/
def EndOffends (text : String) (file : Option String) (d : Diagnostic) : Prop :=
  ∃ before t, StopsAt text file d before t ∧ t.kind = .eof

/-- **Reading fails at a character that is no blank, or at the end.** -/
theorem parse_error_place (h : Program.parse text file = .error d) :
    (∃ pre ch post, text.toList = pre ++ ch :: post ∧
      d.position.offset = (byteLength pre).toUInt32 ∧ isBlank ch = false ∧
        Offending text file d ch post) ∨
    d.position.offset = (byteLength text.toList).toUInt32 ∧ EndOffends text file d := by
  rcases parse_error_cases h with hstops | ⟨before, t, hstops⟩
  · obtain ⟨xs, rest, htext, hsegments, hfinal⟩ := exists_segments text.toList
    have htokenize := hstops.tokenize_eq
    rcases hfinal with hblank | ⟨blanks, ch, post, fault, hblocked⟩
    · rw [tokenize_of_blank ⟨htext, hsegments⟩ hblank] at htokenize
      cases htokenize
    · rw [tokenize_of_blocked ⟨htext, hsegments⟩ hblocked] at htokenize
      cases htokenize
      refine .inl ⟨Piece.join xs ++ blanks, ch, post, ?_, rfl, hblocked.noLexeme.isBlank,
        .unread hstops hblocked.noLexeme⟩
      rw [htext, hblocked.rest_eq, List.append_assoc]
  · have hmem : t ∈ (Cursor.ofText text file).produced := hstops.produced.subset (by simp)
    have hbefore : (Cursor.ofText text file).offset = byteLength [] := rfl
    obtain ⟨pre, post, hstands⟩ := Cursor.exists_standsAt hbefore hmem
    have htext : text.toList = pre ++ (t.lexeme.toList ++ post) := hstands.text_eq
    have hoffset : d.position.offset = (byteLength pre).toUInt32 := by
      rw [hstops.offends.position]
      exact hstands.start
    rcases hstands.first with ⟨hkind, hlexeme, rfl⟩ | ⟨-, ch, cs, hlexeme, hblank⟩
    · rw [hlexeme, String.toList_empty, List.append_nil, List.append_nil] at htext
      exact .inr ⟨htext ▸ hoffset, before, t, hstops, hkind⟩
    · rw [hlexeme] at htext
      exact .inl ⟨pre, ch, cs ++ post, htext, hoffset, hblank,
        .token hstops hlexeme (List.prefix_append cs post)⟩

end Place

/-! ## Cutting a line -/

/-- A line in its text: what comes before it, the blanks at its start, the part that is shown, the
blanks at its end, and what comes after it. -/
structure Cut where
  before : List Char
  lead : List Char
  body : List Char
  trail : List Char
  after : List Char

namespace Cut

/-- The characters of the line. -/
def chars (x : Cut) : List Char := x.lead ++ (x.body ++ x.trail)

/-- The line is one of the text, and all blanks at its ends are apart. -/
structure Of (x : Cut) (text : String) (line : Line) : Prop where
  text_eq : text.toList = x.before ++ (line.chars ++ x.after)
  isLine : IsLine x.before line.chars x.after
  chars_eq : line.chars = x.chars
  lead : Blank x.lead
  trail : Blank x.trail
  first : ∀ c ∈ x.body.head?, isBlank c = false
  last : ∀ c ∈ x.body.getLast?, isBlank c = false

/-- The cut of a line that lies between `before` and `after`. -/
def ofLine (before : List Char) (line : Line) (after : List Char) : Cut :=
  ⟨before, line.chars.takeWhile isBlank, trimEnd (trimStart line.chars),
    (trimStart line.chars).rtakeWhile isBlank, after⟩

theorem of_ofLine {text : String} {line : Line} {before after : List Char}
    (htext : text.toList = before ++ (line.chars ++ after))
    (hline : IsLine before line.chars after) : (ofLine before line after).Of text line := by
  have hbody : trimEnd (trimStart line.chars) ++ (trimStart line.chars).rtakeWhile isBlank =
      trimStart line.chars := List.rdropWhile_append_rtakeWhile
  refine ⟨htext, hline, ?_, fun b hb => List.mem_takeWhile_imp hb,
    fun b hb => List.mem_rtakeWhile_imp hb, ?_, ?_⟩
  · unfold chars ofLine
    simp only [hbody]
    exact List.takeWhile_append_dropWhile.symm
  · intro c hc
    refine head?_dropWhile_eq_false isBlank line.chars c ?_
    show c ∈ (trimStart line.chars).head?
    rw [← hbody]
    exact List.mem_head?_append_of_mem_head? hc
  · intro c hc
    obtain ⟨hne, rfl⟩ := List.mem_getLast?_eq_getLast hc
    exact eq_false_of_ne_true (List.rdropWhile_last_not isBlank (trimStart line.chars) hne)

variable {x : Cut} {text : String} {line : Line}

/-- A character that is no blank is shown. -/
theorem Of.exists_body_eq (h : x.Of text line) {as bs : List Char} {ch : Char}
    (hch : isBlank ch = false) (hchars : line.chars = as ++ ch :: bs) :
    ∃ left right, x.body = left ++ ch :: right ∧ as = x.lead ++ left ∧ bs = right ++ x.trail := by
  have hblank : ∀ chars, Blank chars → ch ∉ chars := by
    intro chars hchars hmem
    rw [hchars ch hmem] at hch
    cases hch
  have heq : x.lead ++ (x.body ++ x.trail) = as ++ ch :: bs := h.chars_eq.symm.trans hchars
  -- it does not lie among the blanks at the start
  obtain ⟨left, has, hrest⟩ :
      ∃ left, as = x.lead ++ left ∧ x.body ++ x.trail = left ++ ch :: bs := by
    rcases List.append_eq_append_iff.mp heq with hleft | ⟨lead, hlead, hrest⟩
    · exact hleft
    · cases lead with
      | nil => exact ⟨[], by rw [hlead, List.append_nil, List.append_nil], hrest.symm⟩
      | cons c lead =>
        obtain ⟨rfl, -⟩ := List.cons_eq_cons.mp hrest
        exact absurd (by simp [hlead]) (hblank _ h.lead)
  -- nor among those at the end
  rcases List.append_eq_append_iff.mp hrest with ⟨trail, -, htrail⟩ | ⟨right, hbody, hright⟩
  · exact absurd (by simp [htrail]) (hblank _ h.trail)
  · cases right with
    | nil => exact absurd (by simp [← show ch :: bs = x.trail from hright]) (hblank _ h.trail)
    | cons c right =>
      obtain ⟨rfl, hbs⟩ := List.cons_eq_cons.mp hright
      exact ⟨left, right, hbody, has, hbs⟩

/-- What is shown has no newline. -/
theorem Of.newline_not_mem (h : x.Of text line) : '\n' ∉ x.body := by
  intro hmem
  obtain ⟨left, right, hbody⟩ := List.append_of_mem hmem
  have hchars : line.chars = (x.lead ++ left) ++ '\n' :: (right ++ x.trail) := by
    rw [h.chars_eq, chars, hbody]
    simp
  obtain ⟨visible, hvisible, hline⟩ := h.isLine.ends
  rcases hline with hline | ⟨hline, -, -⟩
  · rw [hline] at hchars
    -- the newline ends the line, so it would be the last character shown
    rcases List.eq_nil_or_concat (right ++ x.trail) with hnil | ⟨front, c, hconcat⟩
    · obtain ⟨rfl, -⟩ := List.append_eq_nil_iff.mp hnil
      have hlast := h.last '\n' (by simp [hbody])
      exact absurd hlast (by decide)
    · rw [hconcat, List.concat_eq_append, ← List.cons_append, ← List.append_assoc] at hchars
      obtain ⟨hfront, -⟩ := List.append_inj' hchars rfl
      exact hvisible (by simp [hfront])
  · rw [hline] at hchars
    exact hvisible (by simp [hchars])

end Cut

/-! ## The lines of a report -/

/-- The character stands in the line after `column` others, and not before. -/
def FirstAt (c : Char) (column : Nat) (line : List Char) : Prop :=
  ∃ left right, line = left ++ c :: right ∧ c ∉ left ∧ left.length = column

/-- What stands in front of a line that is shown: its number and the bar. -/
def margin (line : Line) : List Char := Nat.toDigits 10 line.number ++ [' ', '|', ' ']

/-- The bar without a number, under the one of `margin`. -/
def gutter (line : Line) : List Char :=
  List.replicate ((Nat.toDigits 10 line.number).length + 1) ' ' ++ ['|']

/-- The line with the caret, after `n` dashes. -/
def caretLine (line : Line) (n : Nat) : List Char :=
  gutter line ++ (' ' :: List.replicate n '-' ++ ['^'])

theorem excerpt_eq {line : Line} {left : List Char}
    (h : takeBytes? line.offset line.chars = some left) :
    excerpt line = [gutter line, margin line ++ trimEnd (trimStart line.chars),
      caretLine line (trimStart left).length] := by
  have hcolumn : caretColumn line = (trimStart left).length + 1 := by
    rw [caretColumn, h, Option.getD_some]
  simp [excerpt, padLeft, hcolumn, gutter, margin, caretLine]

theorem not_mem_toDigits {c : Char} (hc : c.isDigit = false) (n : Nat) : c ∉ Nat.toDigits 10 n := by
  intro hmem
  rw [Nat.isDigit_of_mem_toDigits (by decide) (by decide) hmem] at hc
  cases hc

theorem firstAt_gutter (line : Line) (rest : List Char) :
    FirstAt '|' ((Nat.toDigits 10 line.number).length + 1) (gutter line ++ rest) :=
  ⟨List.replicate ((Nat.toDigits 10 line.number).length + 1) ' ', rest, by simp [gutter], by simp,
    by simp⟩

theorem firstAt_margin (line : Line) (rest : List Char) :
    FirstAt '|' ((Nat.toDigits 10 line.number).length + 1) (margin line ++ rest) :=
  ⟨Nat.toDigits 10 line.number ++ [' '], ' ' :: rest, by simp [margin],
    by simp [not_mem_toDigits (show '|'.isDigit = false by decide)], by simp⟩

theorem firstAt_caretLine (line : Line) (n : Nat) :
    FirstAt '^' ((margin line).length + n) (caretLine line n) :=
  ⟨gutter line ++ (' ' :: List.replicate n '-'), [], by simp [caretLine], by simp [gutter],
    by simp [gutter, margin]; omega⟩

/-- **The report shows the place.** The place has a line and is not inside a character of it; under
the heading stand a bar, the line without its blanks, and the caret, with the bars in one column. -/
structure Pictures (d : Diagnostic) (text name : String) (x : Cut) (line : Line)
    (bar caret : List Char) : Prop where
  line_eq : lineAt? text.toList d.position.offset.toNat = some line
  boundary : ∃ left right, line.chars = left ++ right ∧ byteLength left = line.offset
  takes : (takeBytes? line.offset line.chars).isSome = true
  cut : x.Of text line
  report_eq : d.report text name = String.join (([d.headline, "-> " ++ name] ++
    [bar, margin line ++ x.body, caret].map String.ofList).map (· ++ "\n"))
  /-- Each of the three is a line of its own. -/
  unbroken : ∀ shown ∈ [bar, margin line ++ x.body, caret], '\n' ∉ shown
  aligned : ∃ column, ∀ shown ∈ [bar, margin line ++ x.body, caret], FirstAt '|' column shown

theorem report_of_line {d : Diagnostic} {text : String} {line : Line}
    (hnull : d.position.isNull = false)
    (hline : lineAt? text.toList d.position.offset.toNat = some line) (name : String) :
    d.report text name = String.join (([d.headline, "-> " ++ name] ++
      (excerpt line).map String.ofList).map (· ++ "\n")) := by
  have hline? : d.line? text = some line := by
    rw [Diagnostic.line?_of_not_isNull (by rw [hnull]; exact Bool.false_ne_true), hline]
  unfold Diagnostic.report
  rw [hline?]
  rfl

/-- A place between two characters of its line is shown. -/
theorem pictures_of_line {d : Diagnostic} {text : String} {line : Line}
    {before after left right : List Char} (hnull : d.position.isNull = false)
    (hline : lineAt? text.toList d.position.offset.toNat = some line)
    (hx : (Cut.ofLine before line after).Of text line) (hchars : line.chars = left ++ right)
    (hleft : byteLength left = line.offset) (name : String) :
    Pictures d text name (Cut.ofLine before line after) line (gutter line)
      (caretLine line (trimStart left).length) := by
  have htake : takeBytes? line.offset line.chars = some left := by
    rw [hchars, ← hleft, takeBytes?_append]
  refine ⟨hline, ⟨left, right, hchars, hleft⟩, by rw [htake]; rfl, hx, ?_, ?_,
    (Nat.toDigits 10 line.number).length + 1, ?_⟩
  · rw [report_of_line hnull hline, excerpt_eq htake]
    rfl
  · have hdigits := not_mem_toDigits (show '\n'.isDigit = false by decide) line.number
    simp [gutter, margin, caretLine, hdigits, hx.newline_not_mem]
  · have hbar := firstAt_gutter line []
    rw [List.append_nil] at hbar
    simpa using ⟨hbar, firstAt_margin line _, firstAt_gutter line _⟩

/-! ## The caret -/

/-- **The caret stands under the character that offends**: the one at the offset of the failure, in
the line as it is shown. -/
structure PointsAt (text : String) (file : Option String) (d : Diagnostic) (x : Cut) (line : Line)
    (caret left : List Char) (ch : Char) (right : List Char) : Prop where
  body_eq : x.body = left ++ ch :: right
  offset_eq : byteLength (x.before ++ (x.lead ++ left)) = d.position.offset.toNat
  offending : Offending text file d ch (right ++ (x.trail ++ x.after))
  column : FirstAt '^' (margin line ++ left).length caret

/-- **The caret stands after the last line**: the end of the text offends, and the line counts
without its newline and the blanks at its start. -/
structure PointsPast (text : String) (file : Option String) (d : Diagnostic) (x : Cut) (line : Line)
    (caret visible : List Char) : Prop where
  after_eq : x.after = []
  not_mem : '\n' ∉ visible
  chars_eq : line.chars = visible ∨ line.chars = visible ++ ['\n']
  offends : EndOffends text file d
  column : FirstAt '^' ((margin line).length + (visible.dropWhile isBlank).length) caret

/-- Two ways to cut a list, one at or after the other. -/
theorem exists_append_of_byteLength_le {as bs cs ds : List Char} (h : as ++ bs = cs ++ ds)
    (hle : byteLength as ≤ byteLength cs) : ∃ mid, cs = as ++ mid ∧ bs = mid ++ ds := by
  rcases List.append_eq_append_iff.mp h with hmid | ⟨mid, has, hds⟩
  · exact hmid
  · rw [has, byteLength_append] at hle
    obtain rfl : mid = [] := Lexer.byteLength_eq_zero.mp (by omega)
    exact ⟨[], by rw [has, List.append_nil, List.append_nil], hds.symm⟩

/-- The character of a byte offset in the line that holds it. -/
theorem exists_chars_eq_of_holdsByte {text : String} {pre post : List Char} {ch : Char}
    {line : Line} (htext : text.toList = pre ++ ch :: post)
    (h : HoldsByte text (byteLength pre) line) :
    ∃ before after left right, (Cut.ofLine before line after).Of text line ∧
      line.chars = left ++ ch :: right ∧ byteLength left = line.offset ∧ pre = before ++ left ∧
      post = right ++ after := by
  obtain ⟨before, after, hcut, hline, hoffset⟩ := h.cut
  have heq : before ++ (line.chars ++ after) = pre ++ ch :: post := hcut.symm.trans htext
  obtain ⟨left, rfl, hrest⟩ := exists_append_of_byteLength_le heq (by omega)
  rw [byteLength_append, Nat.add_left_cancel_iff] at hoffset
  have hlt := h.offset_lt
  obtain ⟨mid, hchars, hmid⟩ := exists_append_of_byteLength_le hrest.symm (by omega)
  cases mid with
  | nil =>
    rw [hchars, List.append_nil] at hlt
    omega
  | cons c right =>
    obtain ⟨rfl, hpost⟩ := List.cons_eq_cons.mp hmid
    exact ⟨before, after, left, right, Cut.of_ofLine hcut hline, hchars, hoffset.symm, rfl, hpost⟩

theorem Cut.Of.trimStart_append {x : Cut} {text : String} {line : Line} (h : x.Of text line)
    {left right : List Char} {ch : Char} (hbody : x.body = left ++ ch :: right) :
    trimStart (x.lead ++ left) = left := by
  refine (takeWhile_isBlank_append h.lead fun c hc => h.first c ?_).2
  rw [hbody]
  exact List.mem_head?_append_of_mem_head? hc

section Points

variable {text : String} {file : Option String} {d : Diagnostic}

theorem byteLength_lt_utf8ByteSize {pre post : List Char} {ch : Char}
    (htext : text.toList = pre ++ ch :: post) : byteLength pre < text.utf8ByteSize := by
  have hpos := Char.utf8Size_pos ch
  rw [utf8ByteSize_eq_byteLength, htext, byteLength_append, byteLength_cons]
  omega

/-- A failure at a character. -/
theorem exists_pointsAt (hnull : d.position.isNull = false) {pre post : List Char} {ch : Char}
    (htext : text.toList = pre ++ ch :: post) (hoffset : d.position.offset.toNat = byteLength pre)
    (hch : isBlank ch = false) (hoffending : Offending text file d ch post) (name : String) :
    ∃ x line bar caret, Pictures d text name x line bar caret ∧
      ∃ left right, PointsAt text file d x line caret left ch right := by
  obtain ⟨line, hline, hholds⟩ := exists_holdsByte (byteLength_lt_utf8ByteSize htext)
  obtain ⟨before, after, as, bs, hx, hchars, has, rfl, rfl⟩ :=
    exists_chars_eq_of_holdsByte htext hholds
  rw [← hoffset] at hline
  obtain ⟨left, right, hbody, rfl, rfl⟩ := hx.exists_body_eq hch hchars
  refine ⟨_, line, _, _, pictures_of_line hnull hline hx hchars has name, left, right, hbody,
    hoffset.symm, ?_, ?_⟩
  · rw [← List.append_assoc]
    exact hoffending
  · rw [hx.trimStart_append hbody, List.length_append]
    exact firstAt_caretLine line left.length

/-- A failure at the end. -/
theorem exists_pointsPast (hnull : d.position.isNull = false) (hne : text ≠ "")
    (hoffset : d.position.offset.toNat = text.utf8ByteSize) (hoffends : EndOffends text file d)
    (name : String) :
    ∃ x line bar caret, Pictures d text name x line bar caret ∧
      ∃ visible, PointsPast text file d x line caret visible := by
  obtain ⟨line, hline, hends⟩ := exists_endsText hne
  obtain ⟨before, htext, hisLine, -⟩ := hends.cut
  obtain ⟨visible, hvisible, hchars, hplace⟩ := hends.offset
  obtain ⟨rest, hrest⟩ : ∃ rest, line.chars = visible ++ rest := by
    rcases hchars with hchars | hchars
    · exact ⟨[], by rw [hchars, List.append_nil]⟩
    · exact ⟨['\n'], hchars⟩
  have hx : (Cut.ofLine before line []).Of text line :=
    Cut.of_ofLine (by rw [htext, List.append_nil]) hisLine
  rw [← hoffset] at hline
  exact ⟨_, line, _, _, pictures_of_line hnull hline hx hrest hplace.symm name, visible, rfl,
    hvisible, hchars, hoffends, firstAt_caretLine line _⟩

/-- **The report on every failure of reading points at what offends.** It shows the place; the caret
stands under the character that offends, or after the last line if that is the end of the text. -/
theorem parse_report_points (hne : text ≠ "") (hsize : text.utf8ByteSize < 2 ^ 32)
    (h : Program.parse text file = .error d) (hnull : d.position.isNull = false) (name : String) :
    ∃ x line bar caret, Pictures d text name x line bar caret ∧
      d.position.offset.toNat ≤ text.utf8ByteSize ∧
      (d.position.offset.toNat < text.utf8ByteSize →
        ∃ left ch right, PointsAt text file d x line caret left ch right) ∧
      (d.position.offset.toNat = text.utf8ByteSize →
        ∃ visible, PointsPast text file d x line caret visible) := by
  rcases parse_error_place h with ⟨pre, ch, post, htext, hoffset, hch, hoffending⟩ |
    ⟨hoffset, hoffends⟩
  · have hlt := byteLength_lt_utf8ByteSize htext
    have hnat : d.position.offset.toNat = byteLength pre := by
      rw [hoffset]
      exact UInt32.toNat_ofNat_of_lt' (Nat.lt_trans hlt hsize)
    obtain ⟨x, line, bar, caret, hpictures, left, right, hpoints⟩ :=
      exists_pointsAt hnull htext hnat hch hoffending name
    exact ⟨x, line, bar, caret, hpictures, by omega, fun _ => ⟨left, ch, right, hpoints⟩,
      fun hend => by omega⟩
  · have hnat : d.position.offset.toNat = text.utf8ByteSize := by
      rw [hoffset, ← utf8ByteSize_eq_byteLength]
      exact UInt32.toNat_ofNat_of_lt' hsize
    obtain ⟨x, line, bar, caret, hpictures, visible, hpoints⟩ :=
      exists_pointsPast hnull hne hnat hoffends name
    exact ⟨x, line, bar, caret, hpictures, by omega, fun hlt => by omega,
      fun _ => ⟨visible, hpoints⟩⟩

/-- An indented line with letters of two bytes before a character that starts no token, and a text
that ends too early behind blanks and a newline. -/
theorem parse_report_points_indented :
    (∃ d, Program.parse "function f(int a) \x7b\n \tgröße = 1 # 2; \n\x7d" none = .error d ∧
      d.report "function f(int a) \x7b\n \tgröße = 1 # 2; \n\x7d" "sum" =
        "Error: LexicalError\n-> sum\n  |\n2 | größe = 1 # 2;\n  | ----------^\n" ∧
      ∃ x line bar caret,
        Pictures d "function f(int a) \x7b\n \tgröße = 1 # 2; \n\x7d" "sum" x line bar caret ∧
        ∃ left ch right, PointsAt "function f(int a) \x7b\n \tgröße = 1 # 2; \n\x7d" none d x line
          caret left ch right) ∧
    ∃ d, Program.parse "function f(int a) \x7b\n  x = ä;  \n" none = .error d ∧
      ∃ x line bar caret, Pictures d "function f(int a) \x7b\n  x = ä;  \n" "sum" x line bar caret ∧
        ∃ visible, PointsPast "function f(int a) \x7b\n  x = ä;  \n" none d x line caret
          visible := by
  have hread : Program.parse "function f(int a) \x7b\n \tgröße = 1 # 2; \n\x7d" none =
      .error ⟨.unsupported "#", ⟨34, "shell"⟩⟩ := by decide +kernel
  have hended : Program.parse "function f(int a) \x7b\n  x = ä;  \n" none =
      .error ⟨.misplaced "EOF" "expected a statement", ⟨32, "shell"⟩⟩ := by decide +kernel
  obtain ⟨x, line, bar, caret, hpictures, -, hpoints, -⟩ :=
    parse_report_points (by decide) (by decide +kernel) hread (by decide) "sum"
  obtain ⟨y, last, bar', caret', hpictures', -, -, hpoints'⟩ :=
    parse_report_points (by decide) (by decide +kernel) hended (by decide) "sum"
  exact ⟨⟨_, hread, by decide +kernel, x, line, bar, caret, hpictures, hpoints (by decide +kernel)⟩,
    _, hended, y, last, bar', caret', hpictures', hpoints' (by decide +kernel)⟩

end Points

end Abacus
