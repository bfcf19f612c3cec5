import Abacus.Proofs.Lexing.Segmentation
import Abacus.Proofs.Lexing.Watching
import Abacus.Proofs.Safety.Binding

/-!
# Numerals and their values

A numeral is classed when it is read and turned into a value when it is evaluated. The two agree: a
numeral of a type has a value of that type, and an integer stands for what its digits say.

* `numeralKind?_eq_intConst_iff`, `numeralKind?_eq_floatConst_iff` — the class of a numeral by its
  dots and its value in base ten; with two dots it has none.
* `Cursor.next_of_isDecimal` — a cursor answers at a numeral by its class, as `numeralAnswer` says.
* `Lexer.next_classed` — the answer of a lexer at a numeral, wherever it stands in a text, and the
  value that the evaluator gives it.
-/

namespace Abacus

open Text Decimal

/-! ## Classes -/

section Classes

variable {numeral : List Char}

theorem numeralKind?_eq_intConst_iff (h : IsDecimal numeral) :
    numeralKind? (String.ofList numeral) = some .intConst ↔
      '.' ∉ numeral ∧ decimalValue numeral ≤ 2 ^ 63 - 1 := by
  rw [numeralKind?_of_isDecimal h]
  by_cases hint : '.' ∉ numeral ∧ decimalValue numeral < 2 ^ 63
  · rw [if_pos hint]
    exact iff_of_true rfl ⟨hint.1, Nat.le_pred_of_lt hint.2⟩
  · rw [if_neg hint]
    refine iff_of_false (fun hkind => ?_) fun hand => hint ⟨hand.1, by omega⟩
    split at hkind <;> cases hkind

theorem numeralKind?_eq_floatConst_iff (h : IsDecimal numeral) :
    numeralKind? (String.ofList numeral) = some .floatConst ↔
      numeral.count '.' = 1 ∨ '.' ∉ numeral ∧ 2 ^ 63 ≤ decimalValue numeral := by
  simp only [numeralKind?_of_isDecimal h, ← List.count_eq_zero]
  by_cases hint : numeral.count '.' = 0 ∧ decimalValue numeral < 2 ^ 63
  · rw [if_pos hint]
    refine iff_of_false (fun hkind => ?_) (by omega)
    cases hkind
  · rw [if_neg hint]
    by_cases hdots : numeral.count '.' ≤ 1
    · rw [if_pos hdots]
      exact iff_of_true rfl (by omega)
    · rw [if_neg hdots]
      refine iff_of_false (fun hkind => ?_) (by omega)
      cases hkind

/-- A numeral of a kind ends before a character that is neither digit nor dot. -/
theorem lexeme_of_isDecimal {c : Char} {cs after : List Char} (h : IsDecimal (c :: cs))
    (hafter : ∀ d ∈ after.head?, d.isDigit = false ∧ d ≠ '.') :
    lexeme c (cs ++ after) = (numeralKind? (String.ofList (c :: cs))).elim
      (.error (.malformedNumeral (String.ofList (c :: cs)))) fun kind => .ok (kind, c :: cs) := by
  have hcs : ∀ d ∈ cs, isNumeralPart d = true := fun d hd => isNumeralPart_iff.mpr (h.2 d hd)
  have hstop : after.takeWhile isNumeralPart = [] := by
    cases after with
    | nil => rfl
    | cons d ds =>
      obtain ⟨hdigit, hdot⟩ := hafter d rfl
      exact List.takeWhile_cons_of_neg (by simp [isNumeralPart, hdigit, hdot])
  have hrun : (cs ++ after).takeWhile isNumeralPart = cs := by
    rw [List.takeWhile_append_of_pos hcs, hstop, List.append_nil]
  unfold lexeme
  simp only [isAlphabetic_of_isDigit h.1, h.1, hrun, Bool.false_eq_true, if_false, if_true]
  cases numeralKind? (String.ofList (c :: cs)) <;> rfl

end Classes

/-- The answer at a numeral that starts at the byte `offset` of `file`: a token of its kind over its
bytes, or a fault if it has none. -/
def numeralAnswer (file : String) (offset : Nat) (numeral : List Char) : Except Diagnostic Token :=
  (numeralKind? (String.ofList numeral)).elim
    (.error ⟨.malformedNumeral (String.ofList numeral), ⟨offset.toUInt32, file⟩⟩)
    fun kind => .ok ⟨kind, String.ofList numeral, Span.ofLength file offset (byteLength numeral)⟩

theorem Cursor.next_of_isDecimal {c : Cursor} {blanks numeral after : List Char}
    (hb : Blank blanks) (h : IsDecimal numeral)
    (hafter : ∀ d ∈ after.head?, d.isDigit = false ∧ d ≠ '.')
    (hrest : c.rest = blanks ++ (numeral ++ after)) :
    c.next.1 = numeralAnswer c.file (c.offset + byteLength blanks) numeral := by
  cases numeral with
  | nil => exact h.elim
  | cons ch cs =>
    have hch : isBlank ch = false := by
      cases hblank : isBlank ch with
      | false => rfl
      | true => cases (isDigit_of_isBlank hblank).symm.trans h.1
    have hhead : ∀ d ∈ (ch :: (cs ++ after)).head?, isBlank d = false := by
      rintro d ⟨⟩
      exact hch
    have hskip := skipBlanks_of_append hb hhead hrest
    have hlex := lexeme_of_isDecimal h hafter
    unfold next numeralAnswer
    simp only [hskip, hlex]
    cases numeralKind? (String.ofList (ch :: cs)) <;> rfl

/-! ## Answers and values -/

/-- **What is said of a numeral** that starts at the byte `offset` of `file`. -/
structure Classed (file : String) (offset : Nat) (numeral : List Char)
    (answer : Except Diagnostic Token) : Prop where
  /-- It is an integer iff it has no dot and fits into 64 bits with a sign. -/
  int_iff : (∃ t, answer = .ok t ∧ t.kind = .intConst) ↔
    '.' ∉ numeral ∧ decimalValue numeral ≤ 2 ^ 63 - 1
  /-- It is a float iff it has one dot, or none and does not fit. -/
  float_iff : (∃ t, answer = .ok t ∧ t.kind = .floatConst) ↔
    numeral.count '.' = 1 ∨ '.' ∉ numeral ∧ 2 ^ 63 ≤ decimalValue numeral
  /-- It is malformed iff it has more dots, and then the fault names it and its place. -/
  malformed_iff : answer =
      .error ⟨.malformedNumeral (String.ofList numeral), ⟨offset.toUInt32, file⟩⟩ ↔
    2 ≤ numeral.count '.'
  /-- A token covers the whole numeral. -/
  whole : ∀ t, answer = .ok t → t.lexeme = String.ofList numeral ∧
    t.span = Span.ofLength file offset (byteLength numeral)
  /-- The literal has a value of the type of its kind. -/
  readable : ∀ t type, answer = .ok t → t.kind = NumType.numeral type →
    ∃ value, Value.ofLiteral type t.lexeme = .ok value
  /-- An integer is read as its value in base ten. -/
  value : ∀ t, answer = .ok t → t.kind = .intConst →
    readInt? t.lexeme = some (decimalValue numeral : Int) ∧
      Value.ofLiteral .int t.lexeme = .ok (.int (decimalValue numeral))

section Answers

variable {file : String} {offset : Nat} {numeral : List Char}

theorem numeralAnswer_eq_ok_iff {t : Token} :
    numeralAnswer file offset numeral = .ok t ↔
      ∃ kind, numeralKind? (String.ofList numeral) = some kind ∧
        t = ⟨kind, String.ofList numeral, Span.ofLength file offset (byteLength numeral)⟩ := by
  unfold numeralAnswer
  cases numeralKind? (String.ofList numeral) <;> simp [eq_comm]

theorem exists_numeralAnswer_kind_iff {kind : TokenKind} :
    (∃ t, numeralAnswer file offset numeral = .ok t ∧ t.kind = kind) ↔
      numeralKind? (String.ofList numeral) = some kind := by
  constructor
  · rintro ⟨t, ht, rfl⟩
    obtain ⟨kind, hkind, rfl⟩ := numeralAnswer_eq_ok_iff.mp ht
    exact hkind
  · intro hkind
    exact ⟨_, numeralAnswer_eq_ok_iff.mpr ⟨kind, hkind, rfl⟩, rfl⟩

/-- **The class of a numeral and the value of the literal agree.** -/
theorem classed_numeralAnswer (h : IsDecimal numeral) :
    Classed file offset numeral (numeralAnswer file offset numeral) where
  int_iff := exists_numeralAnswer_kind_iff.trans (numeralKind?_eq_intConst_iff h)
  float_iff := exists_numeralAnswer_kind_iff.trans (numeralKind?_eq_floatConst_iff h)
  malformed_iff := by
    rw [← numeralKind?_eq_none_iff h, numeralAnswer]
    cases numeralKind? (String.ofList numeral) <;> simp
  whole t ht := by
    obtain ⟨kind, -, rfl⟩ := numeralAnswer_eq_ok_iff.mp ht
    exact ⟨rfl, rfl⟩
  readable t type ht hkind := by
    obtain ⟨kind, hclass, rfl⟩ := numeralAnswer_eq_ok_iff.mp ht
    exact readable_of_numeralKind? (hclass.trans (congrArg some hkind))
  value t ht hkind := by
    obtain ⟨kind, hclass, rfl⟩ := numeralAnswer_eq_ok_iff.mp ht
    obtain rfl : kind = .intConst := hkind
    obtain ⟨hdot, hfits⟩ := (numeralKind?_eq_intConst_iff h).mp hclass
    have hread : readInt? (String.ofList numeral) = some (decimalValue numeral : Int) := by
      rw [readInt?_of_isDecimal h, if_pos ⟨hdot, by omega⟩]
    refine ⟨hread, ?_⟩
    simp only [Value.ofLiteral, hread, Option.map_some]

end Answers

/-- **A numeral is classed by its dots and its value, and evaluated accordingly.** It may stand
anywhere in a text, after blanks or not, where no digit or dot follows it; a lexer that has come
there and a cursor at its place answer alike. -/
theorem Lexer.next_classed {l : Lexer} {before blanks numeral after : List Char}
    (htext : l.text = before ++ (blanks ++ (numeral ++ after)))
    (hoffset : byteLength before = l.offset) (hb : Blank blanks) (h : IsDecimal numeral)
    (hafter : ∀ d ∈ after.head?, d.isDigit = false ∧ d ≠ '.') :
    ∃ answer l', l.next = some (answer, l') ∧ (∀ c, l.At c → c.next.1 = answer) ∧
      Classed l.file (l.offset + byteLength blanks) numeral answer := by
  have hat : l.At ⟨l.file, l.offset, blanks ++ (numeral ++ after)⟩ :=
    ⟨rfl, rfl, before, htext, hoffset⟩
  obtain ⟨l', hnext, -⟩ := hat.next
  have hanswer := Cursor.next_of_isDecimal
    (c := ⟨l.file, l.offset, blanks ++ (numeral ++ after)⟩) hb h hafter rfl
  refine ⟨_, l', hnext, fun c hc => ?_, ?_⟩
  · -- a lexer is at one cursor only
    have hsame := Option.some.inj (hc.cursor?.symm.trans hat.cursor?)
    rw [hsame]
  · rw [hanswer]
    exact classed_numeralAnswer h

/-- Zeros in front do not count: `2 ^ 63` is the least float without a dot, and one less is read as
an integer. Both stand after letters of two bytes and a blank. -/
theorem Lexer.next_classed_at_bound :
    (∃ t l', Lexer.next ⟨"f", "größe = 009223372036854775808;".toList, 9, none, #[]⟩ =
        some (.ok t, l') ∧ t.kind = .floatConst ∧
        ∃ value, Value.ofLiteral .float t.lexeme = .ok value) ∧
      ∃ t l', Lexer.next ⟨"f", "größe = 009223372036854775807;".toList, 9, none, #[]⟩ =
        some (.ok t, l') ∧ t.kind = .intConst ∧
        readInt? t.lexeme = some 9223372036854775807 := by
  have hb : Blank [' '] := List.forall_mem_singleton.mpr (by decide +kernel)
  have hafter : ∀ d ∈ [';'].head?, d.isDigit = false ∧ d ≠ '.' := by
    rintro d ⟨⟩
    decide
  constructor
  · have htext : "größe = 009223372036854775808;".toList =
        "größe =".toList ++ ([' '] ++ ("009223372036854775808".toList ++ [';'])) := by decide
    obtain ⟨answer, l', hnext, -, hclassed⟩ := Lexer.next_classed
      (l := ⟨"f", "größe = 009223372036854775808;".toList, 9, none, #[]⟩) htext (by decide) hb
      (by decide) hafter
    obtain ⟨t, rfl, hkind⟩ := hclassed.float_iff.mpr (.inr ⟨by decide, by decide +kernel⟩)
    exact ⟨t, l', hnext, hkind, hclassed.readable t .float rfl hkind⟩
  · have htext : "größe = 009223372036854775807;".toList =
        "größe =".toList ++ ([' '] ++ ("009223372036854775807".toList ++ [';'])) := by decide
    obtain ⟨answer, l', hnext, -, hclassed⟩ := Lexer.next_classed
      (l := ⟨"f", "größe = 009223372036854775807;".toList, 9, none, #[]⟩) htext (by decide) hb
      (by decide) hafter
    obtain ⟨t, rfl, hkind⟩ := hclassed.int_iff.mpr ⟨by decide, by decide +kernel⟩
    exact ⟨t, l', hnext, hkind, (hclassed.value t rfl hkind).1⟩

end Abacus
