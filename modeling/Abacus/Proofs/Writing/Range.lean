import Abacus.Proofs.Lexing.Lexemes
import Abacus.Proofs.Trees.Parts
import Abacus.Proofs.Writing.RoundTrip

/-!
# The trees that can be read

Which trees does reading give? `Program.WellFormed` says it part by part: the names are identifiers,
the literals are numerals of their types, and a body is one `empty` or else statements other than
`empty`. It can be decided for a given tree.

A tree is well formed iff it is writable (`Program.wellFormed_iff_writable`). What was read is
writable, and what is writable is read back from its written form, so the well-formed trees are
those of some text (`exists_parse_iff_wellFormed`).
-/

namespace Abacus

/-- A body that braces can hold: nothing, which is the one statement `empty`, or statements. -/
def IsBody (body : List Stmt) : Prop := body = [.empty] ∨ body ≠ [] ∧ .empty ∉ body

instance : DecidablePred IsBody := fun _ => inferInstanceAs (Decidable (_ ∨ _))

/-- Every name is an identifier, every literal a numeral of its type, and every body is one. -/
structure PartsOk (names : List String) (literals : List (NumType × String))
    (bodies : List (List Stmt)) : Prop where
  names : ∀ x ∈ names, IsIdentifier x
  literals : ∀ l ∈ literals, IsLiteral l.1 l.2
  bodies : ∀ body ∈ bodies, IsBody body

/-- **The trees of texts**, part by part. -/
structure Program.WellFormed (p : Program) : Prop where
  params_ne_nil : p.params ≠ []
  parts : PartsOk p.names p.literals p.bodies

theorem partsOk_iff {names : List String} {literals : List (NumType × String)}
    {bodies : List (List Stmt)} : PartsOk names literals bodies ↔
      (∀ x ∈ names, IsIdentifier x) ∧ (∀ l ∈ literals, IsLiteral l.1 l.2) ∧
        ∀ body ∈ bodies, IsBody body :=
  ⟨fun h => ⟨h.names, h.literals, h.bodies⟩, fun h => ⟨h.1, h.2.1, h.2.2⟩⟩

instance (p : Program) : Decidable p.WellFormed :=
  decidable_of_iff (p.params ≠ [] ∧ (∀ x ∈ p.names, IsIdentifier x) ∧
      (∀ l ∈ p.literals, IsLiteral l.1 l.2) ∧ ∀ body ∈ p.bodies, IsBody body)
    ⟨fun h => ⟨h.1, partsOk_iff.mpr h.2⟩, fun h => ⟨h.1, partsOk_iff.mp h.2⟩⟩

theorem partsOk_append {names names' : List String} {literals literals' : List (NumType × String)}
    {bodies bodies' : List (List Stmt)} :
    PartsOk (names ++ names') (literals ++ literals') (bodies ++ bodies') ↔
      PartsOk names literals bodies ∧ PartsOk names' literals' bodies' := by
  simp only [partsOk_iff, List.forall_mem_append]
  constructor
  · rintro ⟨⟨hn, hn'⟩, ⟨hl, hl'⟩, hb, hb'⟩
    exact ⟨⟨hn, hl, hb⟩, hn', hl', hb'⟩
  · rintro ⟨⟨hn, hl, hb⟩, hn', hl', hb'⟩
    exact ⟨⟨hn, hn'⟩, ⟨hl, hl'⟩, hb, hb'⟩

/-! ## Names and literals -/

/-- The kinds of marks have one text each. -/
theorem hasText_of_mem_marks : ∀ m ∈ marks, m.2.hasText = false := by decide

theorem isName_iff {name : String} : IsName name ↔ IsIdentifier name := by
  rw [IsName, Terminal.spelled_iff]
  constructor
  · intro h
    generalize hkind : (Terminal.mk .ident name).kind = kind at h
    cases h with
    | keyword type => cases type <;> cases hkind
    | identifier h => exact h
    | @numeral type _ _ => cases type <;> cases hkind
    | mark h => cases (congrArg TokenKind.hasText hkind).trans (hasText_of_mem_marks _ h)
  · exact .identifier

theorem isNumeral_iff {type : NumType} {text : String} :
    IsNumeral type text ↔ IsLiteral type text := by
  rw [IsNumeral, Terminal.spelled_iff]
  constructor
  · intro h
    have htext : type.numeral.hasText = true := by cases type <;> rfl
    generalize hkind : (Terminal.mk type.numeral text).kind = kind at h
    have hkind : type.numeral = kind := hkind
    cases h with
    | keyword type' => cases type <;> cases type' <;> cases hkind
    | identifier h => cases type <;> cases hkind
    | numeral h =>
      rw [NumType.numeral_inj hkind]
      exact h
    | mark h => cases (htext.symm.trans (congrArg _ hkind)).trans (hasText_of_mem_marks _ h)
  · exact .numeral

/-! ## Trees -/

/-- An expression is writable if its parts are. -/
theorem Expr.writable_iff {e : Expr} : e.Writable ↔
    (∀ x ∈ e.vars, IsIdentifier x) ∧ ∀ l ∈ e.literals, IsLiteral l.1 l.2 := by
  induction e with
  | literal type text => simp [Writable, vars, literals, isNumeral_iff]
  | var name => simp [Writable, vars, literals, isName_iff]
  | unary op operand ih => exact ih
  | binary op left right ihl ihr =>
    rw [Writable, ihl, ihr, vars, literals, List.forall_mem_append, List.forall_mem_append]
    exact and_and_and_comm

namespace Stmt

mutual

/-- **A statement is writable iff it is not `empty` and its parts are well formed.** -/
theorem writable_iff : ∀ s : Stmt,
    s.Writable ↔ s ≠ .empty ∧ PartsOk s.names s.literals s.bodies
  | .declare type name => by
    simp [Writable, names, literals, bodies, partsOk_iff, isName_iff]
  | .assign target value => by
    simp [Writable, names, literals, bodies, partsOk_iff, isName_iff, Expr.writable_iff, and_assoc]
  | .block body => by
    rw [Writable, names, literals, bodies, allWritable_iff body]
    -- `[empty]` is the one body that can be written although its statement cannot.
    constructor
    · rintro (rfl | ⟨hne, hempty, hparts⟩)
      · exact ⟨nofun, nofun, nofun, List.forall_mem_singleton.mpr (Or.inl rfl)⟩
      · have hbody : IsBody body := Or.inr ⟨hne, hempty⟩
        exact ⟨nofun, hparts.names, hparts.literals,
          List.forall_mem_cons.mpr ⟨hbody, hparts.bodies⟩⟩
    · rintro ⟨-, hnames, hliterals, hbodies⟩
      obtain ⟨hbody, hbodies⟩ := List.forall_mem_cons.mp hbodies
      rcases hbody with rfl | ⟨hne, hempty⟩
      · exact Or.inl rfl
      · exact Or.inr ⟨hne, hempty, hnames, hliterals, hbodies⟩
  | .empty => by simp [Writable]

theorem allWritable_iff : ∀ ss : List Stmt,
    AllWritable ss ↔ .empty ∉ ss ∧ PartsOk (namesAll ss) (literalsAll ss) (bodiesAll ss)
  | [] => by simp [AllWritable, namesAll, literalsAll, bodiesAll, partsOk_iff]
  | s :: ss => by
    rw [AllWritable, namesAll, literalsAll, bodiesAll, partsOk_append, writable_iff s,
      allWritable_iff ss, List.mem_cons, not_or, ne_comm]
    exact and_and_and_comm

end

end Stmt

namespace Program

/-- The trees that can be written are the well-formed ones. -/
theorem wellFormed_iff_writable {p : Program} : p.WellFormed ↔ p.Writable := by
  have hbody := Stmt.writable_iff (.block p.body)
  rw [Stmt.names, Stmt.literals] at hbody
  constructor
  · rintro ⟨hparams, hnames, hliterals, hbodies⟩
    rw [names, List.cons_append, List.forall_mem_cons, List.forall_mem_append] at hnames
    obtain ⟨hname, hparamNames, hbodyNames⟩ := hnames
    refine ⟨isName_iff.mpr hname, hparams, fun q hq => ?_, hbody.mpr ⟨nofun, hbodyNames, hliterals,
      hbodies⟩⟩
    exact isName_iff.mpr (hparamNames q.name (List.mem_map_of_mem hq))
  · rintro ⟨hname, hparams, hparamNames, hwritable⟩
    obtain ⟨-, hbodyNames, hliterals, hbodies⟩ := hbody.mp hwritable
    refine ⟨hparams, ?_, hliterals, hbodies⟩
    rw [names, List.cons_append, List.forall_mem_cons, List.forall_mem_append]
    refine ⟨isName_iff.mp hname, fun x hx => ?_, hbodyNames⟩
    obtain ⟨q, hq, rfl⟩ := List.mem_map.mp hx
    exact isName_iff.mp (hparamNames q hq)

end Program

/-- **The trees that can be read are the well-formed ones.** -/
theorem exists_parse_iff_wellFormed (p : Program) :
    (∃ text, Program.parse text none = .ok p) ↔ p.WellFormed := by
  rw [Program.wellFormed_iff_writable]
  constructor
  · rintro ⟨text, h⟩
    exact Program.writable_of_parse h
  · intro h
    exact ⟨p.source, Program.parse_source h none⟩

-- Not read are a body without a statement, one with two statements `empty`, and a numeral that fits
-- into an `int` as a `float`.
example : ¬ (⟨"f", [⟨.int, "a"⟩], []⟩ : Program).WellFormed ∧
    ¬ (⟨"f", [⟨.int, "a"⟩], [.empty, .empty]⟩ : Program).WellFormed ∧
    (⟨"f", [⟨.int, "a"⟩], [.assign "x" (.literal .float "9223372036854775808")]⟩ :
      Program).WellFormed ∧
    ¬ (⟨"f", [⟨.int, "a"⟩], [.assign "x" (.literal .float "9223372036854775807")]⟩ :
      Program).WellFormed := by
  decide +kernel

end Abacus
