import Abacus.Proofs.Lexing.Lexemes

/-!
# Tokens are the longest lexemes of the text

A text is cut into pieces, each a lexeme with the blanks before it, and a rest. `Segments xs rest`
says that the pieces `xs` can stand in front of `rest`: every lexeme is of a class, and the
character after it does not belong to it.

* `exists_unique_segmented` — every text is cut in one way so that the rest is blank or starts with
  no lexeme after its blanks.
* `Cursor.tokens_of_segments` — the tokens of pieces are their lexemes in order, each at the bytes
  where it stands.
* `tokenize_segmentation` — a text is read iff its rest is blank, its tokens are the lexemes and the
  end, and otherwise the fault is that of the rest, at its first character that is no blank.
-/

namespace Abacus

open Text

/-! ## Pieces -/

/-- A lexeme with the blanks before it. -/
@[ext]
structure Piece where
  blanks : List Char
  kind : TokenKind
  lexeme : String

namespace Piece

/-- The characters of a piece. -/
def chars (x : Piece) : List Char := x.blanks ++ x.lexeme.toList

/-- The characters of pieces in a row. -/
def join (xs : List Piece) : List Char := xs.flatMap chars

@[simp]
theorem join_nil : join [] = [] := rfl

@[simp]
theorem join_cons (x : Piece) (xs : List Piece) :
    join (x :: xs) = x.blanks ++ (x.lexeme.toList ++ join xs) := by
  simp [join, chars]

theorem join_cons_append (x : Piece) (xs : List Piece) (rest : List Char) :
    join (x :: xs) ++ rest = x.chars ++ (join xs ++ rest) := by
  simp [chars]

theorem byteLength_chars (x : Piece) :
    byteLength x.chars = byteLength x.blanks + byteLength x.lexeme.toList := by
  rw [chars, byteLength_append]

end Piece

open Piece

/-- Only blanks. -/
def Blank (chars : List Char) : Prop := ∀ b ∈ chars, isBlank b = true

/-- The pieces can stand in a row in front of `rest`. -/
inductive Segments : List Piece → List Char → Prop
  | nil (rest : List Char) : Segments [] rest
  | cons {x : Piece} {xs : List Piece} {rest : List Char} (hblanks : Blank x.blanks)
      (hlexeme : IsLexeme x.kind x.lexeme) (hends : Ends x.lexeme (join xs ++ rest))
      (h : Segments xs rest) : Segments (x :: xs) rest

/-- The text consists of the pieces and the rest. -/
structure Segmented (text : String) (xs : List Piece) (rest : List Char) : Prop where
  toList_eq : text.toList = join xs ++ rest
  segments : Segments xs rest

/-- No piece comes next: blanks, and then a character that starts no lexeme. -/
structure Blocked (rest blanks : List Char) (c : Char) (after : List Char) (fault : Fault) :
    Prop where
  rest_eq : rest = blanks ++ c :: after
  blank : Blank blanks
  noLexeme : NoLexeme c after fault

/-- No piece comes next. -/
def Final (rest : List Char) : Prop :=
  Blank rest ∨ ∃ blanks c after fault, Blocked rest blanks c after fault

/-! ## Places -/

/-- A lexeme with the number of bytes before it. -/
structure Placed where
  kind : TokenKind
  lexeme : String
  start : Nat

/-- The number of bytes up to the end of the lexeme. -/
def Placed.stop (x : Placed) : Nat := x.start + byteLength x.lexeme.toList

/-- The token of the lexeme; its offsets are kept modulo 2 ^ 32. -/
def Placed.token (file : String) (x : Placed) : Token :=
  ⟨x.kind, x.lexeme, ⟨x.start.toUInt32, x.stop.toUInt32, file⟩⟩

/-- The lexemes of pieces in a row that start at an offset. -/
def placed : Nat → List Piece → List Placed
  | _, [] => []
  | offset, x :: xs =>
    ⟨x.kind, x.lexeme, offset + byteLength x.blanks⟩ :: placed (offset + byteLength x.chars) xs

/-- The lexemes of a text that consists of the pieces and blanks, with the end as the last one. -/
def placedIn (text : String) (xs : List Piece) : List Placed :=
  placed 0 xs ++ [⟨.eof, "", byteLength text.toList⟩]

/-- The characters that make up the bytes from `start` up to `stop`. -/
def slice (start stop : Nat) (chars : List Char) : Option (List Char) :=
  (dropBytes? start chars).bind (takeBytes? (stop - start))

/-! ## One step of the cursor -/

theorem takeWhile_isBlank_append {blanks rest : List Char} (hb : Blank blanks)
    (hrest : ∀ d ∈ rest.head?, isBlank d = false) :
    (blanks ++ rest).takeWhile isBlank = blanks ∧ (blanks ++ rest).dropWhile isBlank = rest := by
  rw [List.takeWhile_append_of_pos hb, List.dropWhile_append_of_pos hb]
  cases rest with
  | nil => simp
  | cons d ds =>
    have hd : ¬ isBlank d = true := by rw [hrest d rfl]; exact Bool.false_ne_true
    rw [List.takeWhile_cons_of_neg hd, List.dropWhile_cons_of_neg hd, List.append_nil]
    exact ⟨rfl, rfl⟩

namespace Cursor

variable {c : Cursor} {blanks rest : List Char}

theorem skipBlanks_of_append (hb : Blank blanks) (hrest : ∀ d ∈ rest.head?, isBlank d = false)
    (hc : c.rest = blanks ++ rest) :
    c.skipBlanks = ⟨c.file, c.offset + byteLength blanks, rest⟩ := by
  obtain ⟨htake, hdrop⟩ := takeWhile_isBlank_append hb hrest
  rw [skipBlanks, hc, htake, hdrop]

/-- Only blanks are left: the end of the text. -/
theorem next_of_blank_rest (hc : Blank c.rest) :
    c.next = (.ok (Placed.token c.file ⟨.eof, "", c.offset + byteLength c.rest⟩),
      ⟨c.file, c.offset + byteLength c.rest, []⟩) := by
  have hskip : c.skipBlanks = ⟨c.file, c.offset + byteLength c.rest, []⟩ :=
    skipBlanks_of_append hc nofun (List.append_nil _).symm
  simp only [next, hskip]
  rfl

/-- A piece is left: its lexeme, at the place after the blanks. -/
theorem next_of_piece {x : Piece} (hb : Blank x.blanks) (hx : IsLexeme x.kind x.lexeme)
    (hends : Ends x.lexeme rest) (hc : c.rest = x.chars ++ rest) :
    c.next = (.ok (Placed.token c.file ⟨x.kind, x.lexeme, c.offset + byteLength x.blanks⟩),
      ⟨c.file, c.offset + byteLength x.chars, rest⟩) := by
  have hspelled : Terminal.Spelled ⟨x.kind, x.lexeme⟩ := Terminal.spelled_iff.mpr hx
  obtain ⟨ch, cs, htext, hlex⟩ := hspelled.lexeme_append (hspelled.endsBefore_iff.mpr hends)
  have htext : x.lexeme.toList = ch :: cs := htext
  have hrest : c.rest = x.blanks ++ ch :: (cs ++ rest) := by
    rw [hc, Piece.chars, htext, List.append_assoc, List.cons_append]
  have hhead : ∀ d ∈ (ch :: (cs ++ rest)).head?, isBlank d = false := by
    rintro d ⟨⟩
    exact isBlank_of_lexeme hlex
  simp only [next, skipBlanks_of_append hb hhead hrest, hlex]
  refine Prod.ext ?_ ?_
  · simp only [token, ← htext, String.ofList_toList]
    rfl
  · simp only [past, Piece.chars, htext, byteLength_append, Nat.add_assoc, List.drop_succ_cons,
      List.length_cons, List.drop_left]

/-- No piece is left: the fault stands after the blanks, and the cursor stays there. -/
theorem next_of_blocked {ch : Char} {fault : Fault} (hc : Blocked c.rest blanks ch rest fault) :
    c.next = (.error ⟨fault, ⟨(c.offset + byteLength blanks).toUInt32, c.file⟩⟩,
      ⟨c.file, c.offset + byteLength blanks, ch :: rest⟩) := by
  have hblank : isBlank ch = false := hc.noLexeme.isBlank
  have hhead : ∀ d ∈ (ch :: rest).head?, isBlank d = false := by
    rintro d ⟨⟩
    exact hblank
  have hlex := (lexeme_eq_error_iff hblank).mpr hc.noLexeme
  simp only [next, skipBlanks_of_append hc.blank hhead hc.rest_eq, hlex]
  rfl

end Cursor

/-! ## Every text is cut -/

/-- The lexeme that is read after blanks is a piece, and it ends there. -/
theorem piece_of_lexeme {rest lex : List Char} {c : Char} {kind : TokenKind}
    (h : lexeme c rest = .ok (kind, lex)) :
    c :: rest = lex ++ rest.dropWhile (continues c) ∧ IsLexeme kind (String.ofList lex) ∧
      Ends (String.ofList lex) (rest.dropWhile (continues c)) := by
  have hlex := lexeme_chars h
  have hspelled := Terminal.spelled_of_lexeme h
  refine ⟨?_, isLexeme_of_lexeme h, hspelled.endsBefore_iff.mp ?_⟩
  · rw [hlex, List.cons_append, List.takeWhile_append_dropWhile]
  · intro ch hch d hd
    have hhead : (String.ofList lex).toList.head? = some c := by
      rw [hlex, String.toList_ofList]
      rfl
    obtain rfl : c = ch := Option.some.inj (hhead.symm.trans hch)
    exact head?_dropWhile_eq_false (continues c) rest d hd

/-- **Every text is cut** into pieces and a rest without one. -/
theorem exists_segments (chars : List Char) :
    ∃ xs rest, chars = join xs ++ rest ∧ Segments xs rest ∧ Final rest := by
  have hsplit := List.takeWhile_append_dropWhile (p := isBlank) (l := chars)
  have hblank : Blank (chars.takeWhile isBlank) := fun b hb => List.mem_takeWhile_imp hb
  cases hdrop : chars.dropWhile isBlank with
  | nil =>
    refine ⟨[], chars, rfl, .nil _, Or.inl ?_⟩
    rw [hdrop, List.append_nil] at hsplit
    rwa [← hsplit]
  | cons c after =>
    have hc : isBlank c = false := by
      refine head?_dropWhile_eq_false isBlank chars c ?_
      rw [hdrop]
      rfl
    rw [hdrop] at hsplit
    cases hlex : lexeme c after with
    | error fault =>
      exact ⟨[], chars, rfl, .nil _, Or.inr ⟨_, c, after, fault, hsplit.symm, hblank,
        (lexeme_eq_error_iff hc).mp hlex⟩⟩
    | ok found =>
      obtain ⟨kind, lex⟩ := found
      obtain ⟨hafter, hlexeme, hends⟩ := piece_of_lexeme hlex
      -- The rest of the text is cut in its turn; it is shorter, since the lexeme is not empty.
      have hshorter : (after.dropWhile (continues c)).length < chars.length := by
        have hle := (List.dropWhile_suffix (continues c) (l := after)).length_le
        have hlength := congrArg List.length hsplit
        simp only [List.length_append, List.length_cons] at hlength
        omega
      obtain ⟨xs, rest, hrest, hxs, hfinal⟩ := exists_segments (after.dropWhile (continues c))
      refine ⟨⟨chars.takeWhile isBlank, kind, String.ofList lex⟩ :: xs, rest, ?_,
        .cons hblank hlexeme (hrest ▸ hends) hxs, hfinal⟩
      rw [join_cons, String.toList_ofList, List.append_assoc, List.append_assoc, ← hrest, ← hafter,
        hsplit]
termination_by chars.length

/-! ## The tokens of a text that is cut -/

theorem IsLexeme.kind_ne_eof {kind : TokenKind} {text : String} (h : IsLexeme kind text) :
    kind ≠ .eof := by
  obtain ⟨c, cs, -, hlex⟩ := Terminal.spelled_iff (x := ⟨kind, text⟩).mpr h
  exact Cursor.lexeme_kind_ne_eof hlex

theorem IsLexeme.byteLength_pos {kind : TokenKind} {text : String} (h : IsLexeme kind text) :
    0 < byteLength text.toList := by
  obtain ⟨c, cs, htext, -⟩ := Terminal.spelled_iff (x := ⟨kind, text⟩).mpr h
  have htext : text.toList = c :: cs := htext
  rw [htext, byteLength_cons]
  exact Nat.add_pos_left (Char.utf8Size_pos c) _

namespace Cursor

/-- **The tokens of pieces** are their lexemes, in order and in place. -/
theorem tokens_of_segments {xs : List Piece} {rest : List Char} (h : Segments xs rest) {c : Cursor}
    (hc : c.rest = join xs ++ rest) :
    c.tokens = (Cursor.mk c.file (c.offset + byteLength (join xs)) rest).tokens.map
      ((placed c.offset xs).map (Placed.token c.file) ++ ·) := by
  induction h generalizing c with
  | nil rest =>
    obtain ⟨file, offset, chars⟩ := c
    obtain rfl : chars = rest := hc
    show tokens ⟨file, offset, chars⟩ = (tokens ⟨file, offset, chars⟩).map ([] ++ ·)
    cases tokens ⟨file, offset, chars⟩ <;> rfl
  | @cons x xs rest hblanks hlexeme hends _ ih =>
    have hn := next_of_piece hblanks hlexeme hends (hc.trans (join_cons_append x xs rest))
    have hoffset : c.offset + byteLength (join (x :: xs)) =
        c.offset + byteLength x.chars + byteLength (join xs) := by
      simp only [join_cons, byteLength_chars, byteLength_append]
      omega
    rw [tokens_of_ok hn hlexeme.kind_ne_eof, ih rfl, hoffset]
    cases tokens ⟨c.file, c.offset + byteLength x.chars + byteLength (join xs), rest⟩ <;> rfl

theorem tokens_of_blank_rest {c : Cursor} (hc : Blank c.rest) :
    c.tokens = .ok [Placed.token c.file ⟨.eof, "", c.offset + byteLength c.rest⟩] :=
  tokens_of_eof (next_of_blank_rest hc) rfl

theorem tokens_of_blocked {c : Cursor} {blanks after : List Char} {ch : Char} {fault : Fault}
    (hc : Blocked c.rest blanks ch after fault) :
    c.tokens = .error ⟨fault, ⟨(c.offset + byteLength blanks).toUInt32, c.file⟩⟩ :=
  tokens_of_error (next_of_blocked hc)

end Cursor

section Tokenize

variable {text : String} {xs : List Piece} {rest : List Char}

theorem tokenize_of_blank (h : Segmented text xs rest) (hrest : Blank rest)
    (file : Option String) :
    tokenize text file =
      .ok ((placedIn text xs).map (Placed.token (file.getD Cursor.defaultFile))) := by
  have hsize : byteLength text.toList = 0 + byteLength (join xs) + byteLength rest := by
    rw [h.toList_eq, byteLength_append, Nat.zero_add]
  have hc : (Cursor.ofText text file).rest = join xs ++ rest := h.toList_eq
  rw [tokenize, Cursor.tokens_of_segments h.segments hc, Cursor.tokens_of_blank_rest hrest,
    placedIn, hsize, List.map_append]
  rfl

theorem tokenize_of_blocked {blanks after : List Char} {c : Char} {fault : Fault}
    (h : Segmented text xs rest) (hrest : Blocked rest blanks c after fault)
    (file : Option String) :
    tokenize text file = .error
      ⟨fault, ⟨(byteLength (join xs ++ blanks)).toUInt32, file.getD Cursor.defaultFile⟩⟩ := by
  have hc : (Cursor.ofText text file).rest = join xs ++ rest := h.toList_eq
  rw [tokenize, Cursor.tokens_of_segments h.segments hc, Cursor.tokens_of_blocked hrest,
    byteLength_append]
  show Except.error _ = _
  simp [Cursor.ofText]

end Tokenize

/-! ## One way to cut -/

/-- Where a piece stands, the rest is neither blank nor blocked. -/
theorem not_final_of_piece {x : Piece} {rest : List Char} (hb : Blank x.blanks)
    (hx : IsLexeme x.kind x.lexeme) (hends : Ends x.lexeme rest) : ¬ Final (x.chars ++ rest) := by
  have hn := Cursor.next_of_piece (c := ⟨"", 0, x.chars ++ rest⟩) hb hx hends rfl
  rintro (hblank | ⟨blanks, c, after, fault, hblocked⟩)
  · rw [Cursor.next_of_blank_rest hblank] at hn
    exact hx.kind_ne_eof (congrArg Token.kind (Except.ok.inj (congrArg Prod.fst hn))).symm
  · rw [Cursor.next_of_blocked hblocked] at hn
    cases congrArg Prod.fst hn

/-- **A text is cut in one way only.** -/
theorem Segments.unique {xs ys : List Piece} {rest rest' : List Char} (hxs : Segments xs rest)
    (hys : Segments ys rest') (hrest : Final rest) (hrest' : Final rest')
    (heq : join xs ++ rest = join ys ++ rest') : xs = ys ∧ rest = rest' := by
  induction hxs generalizing ys with
  | nil rest =>
    cases hys with
    | nil => exact ⟨rfl, heq⟩
    | cons hblanks hlexeme hends _ =>
      obtain rfl : rest = _ := heq.trans (join_cons_append _ _ _)
      exact absurd hrest (not_final_of_piece hblanks hlexeme hends)
  | @cons x xs rest hblanks hlexeme hends _ ih =>
    cases hys with
    | nil =>
      obtain rfl : rest' = _ := heq.symm.trans (join_cons_append _ _ _)
      exact absurd hrest' (not_final_of_piece hblanks hlexeme hends)
    | @cons y ys _ hblanks' hlexeme' hends' hys =>
      rw [join_cons_append, join_cons_append] at heq
      -- Both pieces are the next token of the same cursor.
      have hx := Cursor.next_of_piece (c := ⟨"", 0, x.chars ++ (join xs ++ rest)⟩) hblanks hlexeme
        hends rfl
      have hy := Cursor.next_of_piece (c := ⟨"", 0, x.chars ++ (join xs ++ rest)⟩) hblanks'
        hlexeme' hends' heq
      have hsame := hx.symm.trans hy
      simp only [Prod.mk.injEq, Except.ok.injEq, Placed.token, Token.mk.injEq, Cursor.mk.injEq]
        at hsame
      obtain ⟨⟨hkind, hlex, -⟩, -, -, htail⟩ := hsame
      obtain ⟨rfl, rfl⟩ := ih hys hrest htail
      rw [htail] at heq
      have hchars := List.append_cancel_right heq
      rw [Piece.chars, Piece.chars, hlex] at hchars
      have hpiece : x = y := Piece.ext (List.append_cancel_right hchars) hkind hlex
      exact ⟨by rw [hpiece], rfl⟩

/-! ## Places are apart -/

theorem bounds_of_mem_placed {xs : List Piece} {offset : Nat} {x : Placed}
    (hx : x ∈ placed offset xs) : offset ≤ x.start ∧ x.stop ≤ offset + byteLength (join xs) := by
  induction xs generalizing offset with
  | nil => cases hx
  | cons y ys ih =>
    rw [join_cons, byteLength_append, byteLength_append]
    rcases List.mem_cons.mp hx with rfl | hx
    · simp only [Placed.stop]
      omega
    · have hbounds := ih hx
      rw [byteLength_chars] at hbounds
      omega

/-- Each lexeme ends before the next one starts. -/
theorem pairwise_placed (xs : List Piece) (offset : Nat) :
    (placed offset xs).Pairwise fun x y => x.stop ≤ y.start := by
  induction xs generalizing offset with
  | nil => exact .nil
  | cons y ys ih =>
    refine .cons (fun x hx => ?_) (ih _)
    have hstart := (bounds_of_mem_placed hx).1
    rw [byteLength_chars] at hstart
    simp only [Placed.stop]
    omega

theorem slice_append (before chars rest : List Char) :
    slice (byteLength before) (byteLength before + byteLength chars) (before ++ (chars ++ rest)) =
      some chars := by
  rw [slice, dropBytes?_append, Option.bind_some, Nat.add_sub_cancel_left, takeBytes?_append]

/-- The bytes of a place are those of its lexeme. -/
theorem slice_of_mem_placed (before : List Char) {xs : List Piece} {rest : List Char} {x : Placed}
    (hx : x ∈ placed (byteLength before) xs) :
    slice x.start x.stop (before ++ (join xs ++ rest)) = some x.lexeme.toList := by
  -- Each step moves a piece into `before`.
  induction xs generalizing before with
  | nil => cases hx
  | cons y ys ih =>
    rcases List.mem_cons.mp hx with rfl | hx
    · have hslice := slice_append (before ++ y.blanks) y.lexeme.toList (join ys ++ rest)
      simp only [byteLength_append, List.append_assoc] at hslice
      simpa [Placed.stop] using hslice
    · rw [← byteLength_append] at hx
      simpa [Piece.chars] using ih _ hx

theorem start_lt_stop_of_mem_placed {xs : List Piece} {rest : List Char} {offset : Nat} {x : Placed}
    (h : Segments xs rest) (hx : x ∈ placed offset xs) : x.start < x.stop := by
  induction h generalizing offset with
  | nil => cases hx
  | cons _ hlexeme _ _ ih =>
    rcases List.mem_cons.mp hx with rfl | hx
    · exact Nat.lt_add_of_pos_right hlexeme.byteLength_pos
    · exact ih hx

/-- The lexemes stand in order and apart, and the text has each of them at its bytes. Only the end
has none. -/
structure InPlace (text : String) (ps : List Placed) : Prop where
  apart : ps.Pairwise fun x y => x.stop ≤ y.start
  start_lt_stop : ∀ x ∈ ps, x.kind ≠ .eof → x.start < x.stop
  slice_eq : ∀ x ∈ ps, slice x.start x.stop text.toList = some x.lexeme.toList
  stop_le : ∀ x ∈ ps, x.stop ≤ byteLength text.toList

theorem inPlace_placedIn {text : String} {xs : List Piece} {rest : List Char}
    (h : Segmented text xs rest) : InPlace text (placedIn text xs) := by
  have hsize : byteLength text.toList = byteLength (join xs) + byteLength rest := by
    rw [h.toList_eq, byteLength_append]
  have hstop : ∀ x ∈ placed 0 xs, x.stop ≤ byteLength text.toList := by
    intro x hx
    have hbounds := (bounds_of_mem_placed hx).2
    omega
  constructor
  · refine List.pairwise_append.mpr ⟨pairwise_placed xs 0, List.pairwise_singleton _ _, ?_⟩
    intro x hx e he
    rw [List.mem_singleton.mp he]
    exact hstop x hx
  · intro x hx hkind
    rcases List.mem_append.mp hx with hx | hx
    · exact start_lt_stop_of_mem_placed h.segments hx
    · rw [List.mem_singleton.mp hx] at hkind
      exact absurd rfl hkind
  · intro x hx
    rcases List.mem_append.mp hx with hx | hx
    · rw [h.toList_eq]
      exact slice_of_mem_placed [] hx
    · have hend := slice_append text.toList [] []
      rw [List.append_nil, List.append_nil] at hend
      rw [List.mem_singleton.mp hx]
      exact hend
  · intro x hx
    rcases List.mem_append.mp hx with hx | hx
    · exact hstop x hx
    · rw [List.mem_singleton.mp hx]
      exact Nat.le_refl _

/-- In a text of less than 2 ^ 32 bytes no offset is cut off. -/
theorem Placed.span_toNat {text : String} {ps : List Placed} (h : InPlace text ps)
    (hsize : byteLength text.toList < 2 ^ 32) (file : String) {x : Placed} (hx : x ∈ ps) :
    (x.token file).span.start.toNat = x.start ∧ (x.token file).span.stop.toNat = x.stop := by
  have hstop : x.stop < UInt32.size := Nat.lt_of_le_of_lt (h.stop_le x hx) hsize
  have hstart : x.start ≤ x.stop := Nat.le_add_right _ _
  exact ⟨UInt32.toNat_ofNat_of_lt' (Nat.lt_of_le_of_lt hstart hstop),
    UInt32.toNat_ofNat_of_lt' hstop⟩

/-! ## Reading a text -/

/-- **Every text is cut in one way** into pieces and a rest without one. -/
theorem exists_unique_segmented (text : String) :
    ∃ xs rest, Segmented text xs rest ∧ Final rest ∧
      ∀ ys rest', Segmented text ys rest' → Final rest' → ys = xs ∧ rest' = rest := by
  obtain ⟨xs, rest, hchars, hxs, hfinal⟩ := exists_segments text.toList
  refine ⟨xs, rest, ⟨hchars, hxs⟩, hfinal, ?_⟩
  intro ys rest' hys hfinal'
  exact hys.segments.unique hxs hfinal' hfinal (hys.toList_eq.symm.trans hchars)

section Tokenize

variable {text : String} {file : Option String}

/-- **A text is read iff its rest is blank.** -/
theorem tokenize_eq_ok_iff {ts : List Token} :
    tokenize text file = .ok ts ↔ ∃ xs tail, Segmented text xs tail ∧ Blank tail ∧
      ts = (placedIn text xs).map (Placed.token (file.getD Cursor.defaultFile)) := by
  constructor
  · intro hts
    obtain ⟨xs, rest, hcut, hfinal, -⟩ := exists_unique_segmented text
    rcases hfinal with hblank | ⟨blanks, c, after, fault, hblocked⟩
    · rw [tokenize_of_blank hcut hblank] at hts
      exact ⟨xs, rest, hcut, hblank, (Except.ok.inj hts).symm⟩
    · rw [tokenize_of_blocked hcut hblocked] at hts
      cases hts
  · rintro ⟨xs, tail, hcut, hblank, rfl⟩
    exact tokenize_of_blank hcut hblank file

/-- **Reading fails iff the rest is blocked**, and fails there. -/
theorem tokenize_eq_error_iff {d : Diagnostic} :
    tokenize text file = .error d ↔ ∃ xs rest blanks c after fault, Segmented text xs rest ∧
      Blocked rest blanks c after fault ∧
      d = ⟨fault, ⟨(byteLength (join xs ++ blanks)).toUInt32, file.getD Cursor.defaultFile⟩⟩ := by
  constructor
  · intro hd
    obtain ⟨xs, rest, hcut, hfinal, -⟩ := exists_unique_segmented text
    rcases hfinal with hblank | ⟨blanks, c, after, fault, hblocked⟩
    · rw [tokenize_of_blank hcut hblank] at hd
      cases hd
    · rw [tokenize_of_blocked hcut hblocked] at hd
      exact ⟨xs, rest, blanks, c, after, fault, hcut, hblocked, (Except.error.inj hd).symm⟩
  · rintro ⟨xs, rest, blanks, c, after, fault, hcut, hblocked, rfl⟩
    exact tokenize_of_blocked hcut hblocked file

/-- In a text of less than 2 ^ 32 bytes the spans of the tokens are apart, and the text has each
lexeme at its span. -/
theorem spans_of_tokenize {ts : List Token} (hsize : byteLength text.toList < 2 ^ 32)
    (hts : tokenize text file = .ok ts) :
    ts.Pairwise (fun t u => t.span.stop ≤ u.span.start) ∧
      ∀ t ∈ ts, slice t.span.start.toNat t.span.stop.toNat text.toList = some t.lexeme.toList := by
  obtain ⟨xs, tail, hcut, -, rfl⟩ := tokenize_eq_ok_iff.mp hts
  have hplace := inPlace_placedIn hcut
  constructor
  · refine List.pairwise_map.mpr (hplace.apart.imp_of_mem ?_)
    intro x y hx hy hxy
    rw [UInt32.le_iff_toNat_le, (Placed.span_toNat hplace hsize _ hx).2,
      (Placed.span_toNat hplace hsize _ hy).1]
    exact hxy
  · intro t ht
    obtain ⟨x, hx, rfl⟩ := List.mem_map.mp ht
    obtain ⟨hstart, hstop⟩ := Placed.span_toNat hplace hsize (file.getD Cursor.defaultFile) hx
    rw [hstart, hstop]
    exact hplace.slice_eq x hx

end Tokenize

/-- **Tokens are the longest lexemes of the text.** It can be cut in one way into pieces and a rest
without one. If the rest is blank, the tokens are the lexemes in their places and the end; if it is
blocked, reading fails there. -/
theorem tokenize_segmentation (text : String) (file : Option String) :
    (∃ xs rest, Segmented text xs rest ∧ Final rest ∧
      ∀ ys rest', Segmented text ys rest' → Final rest' → ys = xs ∧ rest' = rest) ∧
    (∀ ts, tokenize text file = .ok ts ↔ ∃ xs tail, Segmented text xs tail ∧ Blank tail ∧
      ts = (placedIn text xs).map (Placed.token (file.getD Cursor.defaultFile))) ∧
    (∀ xs tail, Segmented text xs tail → Blank tail → InPlace text (placedIn text xs)) ∧
    (∀ d, tokenize text file = .error d ↔
      ∃ xs rest blanks c after fault, Segmented text xs rest ∧
        Blocked rest blanks c after fault ∧
        d = ⟨fault, ⟨(byteLength (join xs ++ blanks)).toUInt32, file.getD Cursor.defaultFile⟩⟩) ∧
    (byteLength text.toList < 2 ^ 32 → ∀ ts, tokenize text file = .ok ts →
      ts.Pairwise (fun t u => t.span.stop ≤ u.span.start) ∧
        ∀ t ∈ ts, slice t.span.start.toNat t.span.stop.toNat text.toList =
          some t.lexeme.toList) := by
  refine ⟨exists_unique_segmented text, fun _ => tokenize_eq_ok_iff, ?_,
    fun _ => tokenize_eq_error_iff, fun hsize _ hts => spans_of_tokenize hsize hts⟩
  intro xs tail hcut _
  exact inPlace_placedIn hcut

/-- Letters of two bytes and a numeral that a word follows at once: the tokens are in place. -/
theorem tokenize_segmentation_adjacent :
    ∃ ts xs tail, tokenize " größe=1.5x " none = .ok ts ∧ ts.map Token.lexeme =
        ["größe", "=", "1.5", "x", ""] ∧
      Segmented " größe=1.5x " xs tail ∧ Blank tail ∧
      InPlace " größe=1.5x " (placedIn " größe=1.5x " xs) ∧
      ts.Pairwise fun t u => t.span.stop ≤ u.span.start := by
  have hts : tokenize " größe=1.5x " none = .ok
      [⟨.ident, "größe", ⟨1, 8, "shell"⟩⟩, ⟨.assign, "=", ⟨8, 9, "shell"⟩⟩,
        ⟨.floatConst, "1.5", ⟨9, 12, "shell"⟩⟩, ⟨.ident, "x", ⟨12, 13, "shell"⟩⟩,
        ⟨.eof, "", ⟨14, 14, "shell"⟩⟩] := by decide +kernel
  obtain ⟨-, hok, hplace, -, hspans⟩ := tokenize_segmentation " größe=1.5x " none
  obtain ⟨xs, tail, hxs, htail, -⟩ := (hok _).mp hts
  exact ⟨_, xs, tail, hts, by decide, hxs, htail, hplace xs tail hxs htail,
    (hspans (by decide +kernel) _ hts).1⟩

end Abacus
