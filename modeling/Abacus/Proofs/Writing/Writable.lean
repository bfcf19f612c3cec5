import Abacus.Proofs.Reading.Exactness
import Abacus.Proofs.Writing.Spelling

/-!
# Trees that can be written

The printer writes any tree down, but not every tree comes back: a name must be read as a name, a
literal as a numeral of its type, and a block must hold one `empty` or else statements that are
written as something. Such trees are `Writable`.

* `writable_of_function` — the trees of a word are writable if its terminals are spelled.
* `Program.writable_of_parse` — so is every program that was read.
-/

namespace Abacus

open Grammar

/-- The text is read as a name. -/
def IsName (name : String) : Prop := Terminal.Spelled ⟨.ident, name⟩

/-- The text is read as a numeral of the type. -/
def IsNumeral (type : NumType) (text : String) : Prop := Terminal.Spelled ⟨type.numeral, text⟩

/-- Names and literals are what they are called. -/
def Expr.Writable : Expr → Prop
  | literal type text => IsNumeral type text
  | var name => IsName name
  | unary _ operand => operand.Writable
  | binary _ left right => left.Writable ∧ right.Writable

namespace Stmt

mutual

/-- A statement that leaves a trace in the text. -/
def Writable : Stmt → Prop
  | .declare _ name => IsName name
  | .assign target value => IsName target ∧ value.Writable
  | .block body => body = [.empty] ∨ body ≠ [] ∧ AllWritable body
  | .empty => False

/-- Every statement is writable. -/
def AllWritable : List Stmt → Prop
  | [] => True
  | s :: ss => s.Writable ∧ AllWritable ss

end

end Stmt

/-- A program that the printer's text stands for. -/
structure Program.Writable (p : Program) : Prop where
  name : IsName p.name
  params_ne_nil : p.params ≠ []
  param_names : ∀ q ∈ p.params, IsName q.name
  body : (Stmt.block p.body).Writable

/-! ## What is derived is writable

Each rule puts a lexeme of its word into the tree, so the trees of a spelled word are writable. The
induction is on the derivation; the nested languages `Chain`, `Compound` and `Star` have their own
cases. -/

/-- Every terminal of the word is spelled. -/
def AllSpelled (w : List Terminal) : Prop := ∀ x ∈ w, x.Spelled

@[simp]
theorem allSpelled_cons {x : Terminal} {w : List Terminal} :
    AllSpelled (x :: w) ↔ x.Spelled ∧ AllSpelled w :=
  List.forall_mem_cons

@[simp]
theorem allSpelled_append {u w : List Terminal} :
    AllSpelled (u ++ w) ↔ AllSpelled u ∧ AllSpelled w :=
  List.forall_mem_append

theorem isName_of_spelled {x : Terminal} (hx : x.Spelled) (hk : x.kind = .ident) :
    IsName x.lexeme := by
  rw [Terminal.eq_mk hk] at hx
  exact hx

theorem isNumeral_of_spelled {x : Terminal} {type : NumType} (hx : x.Spelled)
    (hk : x.kind = type.numeral) : IsNumeral type x.lexeme := by
  rw [Terminal.eq_mk hk] at hx
  exact hx

namespace Grammar

/-- The trees of a spelled word are writable. -/
abbrev WritesExpr (w : List Terminal) (e : Expr) : Prop := AllSpelled w → e.Writable

theorem writesExpr_binary {w u : List Terminal} {l r : Expr} {op : BinaryOp} {t : Terminal}
    (hl : WritesExpr w l) (hr : WritesExpr u r) : WritesExpr (w ++ t :: u) (.binary op l r) := by
  intro h
  simp only [allSpelled_append, allSpelled_cons] at h
  exact ⟨hl h.1, hr h.2.2⟩

theorem writesExpr_of_factor {w : List Terminal} {e : Expr} (h : DerivesFactor w e) :
    WritesExpr w e := by
  refine @DerivesFactor.rec (fun w e _ => WritesExpr w e) (fun w e _ => WritesExpr w e)
    (fun w e _ => WritesExpr w e) ?sign ?literal ?group ?var ?term ?sum ?factor ?product w e h
  case sign => exact fun _ _ ih h => ih (allSpelled_cons.mp h).2
  case literal => exact fun ht h => isNumeral_of_spelled (allSpelled_cons.mp h).1 ht
  case group =>
    intro l r w e _ _ _ ih h
    simp only [List.cons_append, allSpelled_cons, allSpelled_append] at h
    exact ih h.2.1
  case var => exact fun ht h => isName_of_spelled (allSpelled_cons.mp h).1 ht
  case term => exact fun _ ih => ih
  case sum => exact fun _ _ _ _ ihl ihr => writesExpr_binary ihl ihr
  case factor => exact fun _ ih => ih
  case product => exact fun _ _ _ _ ihl ihr => writesExpr_binary ihl ihr

theorem writesExpr_of_chain {ops : List BinaryOp} {X : Lang Expr} {w : List Terminal} {e : Expr}
    (hX : ∀ {u e}, X u e → WritesExpr u e) (h : Chain ops X w e) : WritesExpr w e := by
  induction h with
  | one he => exact hX he
  | more _ _ _ hr ihl => exact writesExpr_binary ihl (hX hr)

theorem writesExpr_of_expr {w : List Terminal} {e : Expr} (h : DerivesExpr w e) : WritesExpr w e :=
  writesExpr_of_chain (writesExpr_of_chain writesExpr_of_factor) h

theorem writable_of_stmt {w : List Terminal} {s : Stmt} (h : DerivesStmt w s) :
    AllSpelled w → s.Writable := by
  refine @DerivesStmt.rec (fun w s _ => AllSpelled w → s.Writable)
    (fun w ss _ => AllSpelled w → (Stmt.block ss).Writable)
    (fun w ss _ => AllSpelled w → Stmt.AllWritable ss)
    ?block ?assign ?declare ?empty ?full ?nil ?cons w s h
  case block => exact fun _ ih => ih
  case assign =>
    intro x eq semi w e hx _ he _ h
    simp only [List.cons_append, allSpelled_cons, allSpelled_append] at h
    exact ⟨isName_of_spelled h.1 hx, writesExpr_of_expr he h.2.2.1⟩
  case declare =>
    intro k x semi type _ hx _ h
    simp only [allSpelled_cons] at h
    exact isName_of_spelled h.2.1 hx
  case empty => exact fun _ _ _ => Or.inl rfl
  case full =>
    intro l r w ss _ _ hne _ ih h
    simp only [List.cons_append, allSpelled_cons, allSpelled_append] at h
    exact Or.inr ⟨hne, ih h.2.1⟩
  case nil => exact fun _ => trivial
  case cons =>
    intro w u s ss _ _ ihs ihss h
    exact ⟨ihs (allSpelled_append.mp h).1, ihss (allSpelled_append.mp h).2⟩

theorem writable_of_compound {w : List Terminal} {ss : List Stmt} (h : DerivesCompound w ss)
    (hw : AllSpelled w) : (Stmt.block ss).Writable :=
  writable_of_stmt (.block h) hw

theorem isName_of_param {w : List Terminal} {p : Param} (h : DerivesParam w p)
    (hw : AllSpelled w) : IsName p.name := by
  obtain ⟨-, hx⟩ := h
  simp only [allSpelled_cons] at hw
  exact isName_of_spelled hw.2.1 hx

theorem isName_of_moreParams {w : List Terminal} {ps : List Param}
    (h : Star DerivesNextParam w ps) (hw : AllSpelled w) : ∀ p ∈ ps, IsName p.name := by
  induction h with
  | nil => nofun
  | cons hp _ ih =>
    obtain ⟨hp', hrest⟩ := allSpelled_append.mp hw
    obtain ⟨-, hp⟩ := hp
    have hname := isName_of_param hp (allSpelled_cons.mp hp').2
    exact List.forall_mem_cons.mpr ⟨hname, ih hrest⟩

/-- The tree of a spelled function is writable. -/
theorem writable_of_function {w : List Terminal} {p : Program} (h : DerivesFunction w p)
    (hw : AllSpelled w) : p.Writable := by
  obtain ⟨-, -, hx, -, ⟨hp, hps⟩, -, hbody⟩ := h
  simp only [List.cons_append, allSpelled_cons, allSpelled_append] at hw
  obtain ⟨-, hx', -, ⟨hp', hps'⟩, -, hbody'⟩ := hw
  refine ⟨isName_of_spelled hx' hx, List.cons_ne_nil _ _, ?_, writable_of_compound hbody hbody'⟩
  exact List.forall_mem_cons.mpr ⟨isName_of_param hp hp', isName_of_moreParams hps hps'⟩

end Grammar

/-- **What was read can be written.** -/
theorem Program.writable_of_parse {text : String} {file : Option String} {p : Program}
    (h : Program.parse text file = .ok p) : p.Writable := by
  obtain ⟨ts, hts, hp⟩ := parse_eq_ok_iff.mp h
  obtain ⟨us, e, rfl, -, hus⟩ := Cursor.spelled_of_tokens hts
  rw [terminals, List.map_append] at hp
  generalize hw : us.map Token.terminal ++ [e].map Token.terminal = w at hp
  obtain ⟨hf, -⟩ := hp
  obtain ⟨rfl, -⟩ := List.append_inj' hw rfl
  exact writable_of_function hf (List.forall_mem_map.mpr hus)

end Abacus
