import Abacus.Program.Printer
import Abacus.Proofs.Writing.Writable

/-!
# Written programs are read back

The *word* of a tree is the list of terminals in its written form. Two facts about it make the round
trip:

* the word of a writable tree derives the tree (`Program.derivesFunction_word`): operations stand in
  parentheses, so each is a factor by itself, whatever binds tighter;
* the written form spells the word (`Program.spells_source`): the printer puts a blank or a mark
  wherever two lexemes would run into one.

Since a spelled text is read as what it spells, a writable program comes back from its written form
(`Program.parse_source`), and `parse_source_of_parse` says so for every program that was read.
-/

namespace Abacus

open Grammar

/-! ## Words -/

/-- The terminals of a written expression. -/
def Expr.word : Expr → List Terminal
  | literal type text => [⟨type.numeral, text⟩]
  | var name => [⟨.ident, name⟩]
  | unary op operand => ⟨op.kind, op.symbol⟩ :: operand.word
  | binary op left right =>
    ⟨.lparen, "("⟩ :: (left.word ++ ⟨op.kind, op.symbol⟩ :: right.word) ++ [⟨.rparen, ")"⟩]

namespace Stmt

mutual

/-- The terminals of a written statement. -/
def word : Stmt → List Terminal
  | .declare type name => [⟨type.keyword, type.name⟩, ⟨.ident, name⟩, ⟨.semi, ";"⟩]
  | .assign target value => ⟨.ident, target⟩ :: ⟨.assign, "="⟩ :: value.word ++ [⟨.semi, ";"⟩]
  | .block body => ⟨.lbrace, "\x7b"⟩ :: words body ++ [⟨.rbrace, "\x7d"⟩]
  | .empty => []

/-- The terminals of written statements. -/
def words : List Stmt → List Terminal
  | [] => []
  | s :: ss => s.word ++ words ss

end

end Stmt

/-- The terminals of a written parameter. -/
def Param.word (p : Param) : List Terminal := [⟨p.type.keyword, p.type.name⟩, ⟨.ident, p.name⟩]

/-- The terminals of written parameters, a comma between each two. -/
def Param.words : List Param → List Terminal
  | [] => []
  | p :: ps => p.word ++ ps.flatMap fun q => ⟨.comma, ","⟩ :: q.word

/-- The terminals of a written program, without the end. -/
def Program.word (p : Program) : List Terminal :=
  ⟨.ident, functionKeyword⟩ :: ⟨.ident, p.name⟩ :: ⟨.lparen, "("⟩ :: Param.words p.params ++
    ⟨.rparen, ")"⟩ :: (Stmt.block p.body).word

/-! ## Words derive their trees -/

/-- A written expression is a factor. -/
theorem Expr.derivesFactor_word (e : Expr) : DerivesFactor e.word e := by
  induction e with
  | literal type text => exact .literal rfl
  | var name => exact .var rfl
  | unary op operand ih => exact .sign rfl ih
  | binary op left right ihl ihr =>
    have hsum : op ∈ [BinaryOp.add, .sub] ∨ op ∈ [BinaryOp.mul, .div] := by
      cases op <;> decide
    refine .group rfl ?_ rfl
    rcases hsum with hop | hop
    · exact .more (.one (.one ihl)) hop rfl (.one ihr)
    · exact .one (.more (.one ihl) hop rfl ihr)

theorem Expr.derivesExpr_word (e : Expr) : DerivesExpr e.word e :=
  .one (.one e.derivesFactor_word)

namespace Stmt

theorem derivesCompound_of_words {body : List Stmt}
    (hbody : AllWritable body → Star DerivesStmt (words body) body)
    (h : (block body).Writable) : DerivesCompound (block body).word body := by
  rw [word]
  rcases h with rfl | ⟨hne, hall⟩
  · exact .empty rfl rfl
  · exact .full rfl (hbody hall) hne rfl

mutual

theorem derivesStmt_word : ∀ s : Stmt, s.Writable → DerivesStmt s.word s
  | .declare _ _, _ => .declare rfl rfl rfl
  | .assign _ value, _ => .assign rfl rfl value.derivesExpr_word rfl
  | .block body, h => .block (derivesCompound_of_words (derivesStmts_words body) h)

theorem derivesStmts_words : ∀ ss : List Stmt, AllWritable ss → Star DerivesStmt (words ss) ss
  | [], _ => .nil
  | s :: ss, h => .cons (derivesStmt_word s h.1) (derivesStmts_words ss h.2)

end

end Stmt

theorem Param.derivesNextParams_word (ps : List Param) :
    Star DerivesNextParam (ps.flatMap fun q => ⟨.comma, ","⟩ :: q.word) ps := by
  induction ps with
  | nil => exact .nil
  | cons p ps ih => exact .cons (.mk rfl (.mk rfl rfl)) ih

theorem Param.derivesParams_words {ps : List Param} (h : ps ≠ []) :
    DerivesParams (Param.words ps) ps := by
  cases ps with
  | nil => exact absurd rfl h
  | cons p ps => exact .mk (.mk rfl rfl) (Param.derivesNextParams_word ps)

/-- **The word of a writable program derives it.** -/
theorem Program.derivesFunction_word {p : Program} (h : p.Writable) : DerivesFunction p.word p :=
  .mk rfl rfl rfl rfl (Param.derivesParams_words h.params_ne_nil) rfl
    (Stmt.derivesCompound_of_words (Stmt.derivesStmts_words p.body) h.body)

/-! ## Written forms spell their words

Every lemma speaks of a written form in front of the rest of the text, since what follows decides
where its last lexeme ends. -/

theorem spelled_keyword (type : NumType) : Terminal.Spelled ⟨type.keyword, type.name⟩ := by
  cases type
  · exact ⟨'i', ['n', 't'], rfl, rfl⟩
  · exact ⟨'f', ['l', 'o', 'a', 't'], rfl, rfl⟩

theorem isName_functionKeyword : IsName functionKeyword :=
  ⟨'f', "unction".toList, rfl, rfl⟩

theorem spells_operator (op : BinaryOp) {chars : List Char} {xs : List Terminal}
    (h : Spells chars xs) : Spells (op.symbol.toList ++ chars) (⟨op.kind, op.symbol⟩ :: xs) := by
  cases op <;> exact .mark rfl rfl h

theorem spells_sign (op : UnaryOp) {chars : List Char} {xs : List Terminal}
    (h : Spells chars xs) : Spells (op.symbol.toList ++ chars) (⟨op.kind, op.symbol⟩ :: xs) := by
  cases op <;> exact .mark rfl rfl h

theorem spells_space {chars : List Char} {xs : List Terminal} (h : Spells chars xs) :
    Spells (' ' :: chars) xs :=
  .blank rfl h

theorem parts_cons {c : Char} {chars : List Char} (hw : isWordPart c = false)
    (hn : isNumeralPart c = false) : Parts (c :: chars) := by
  intro d hd
  cases hd
  exact ⟨hw, hn⟩

theorem parts_space (chars : List Char) : Parts (' ' :: chars) := parts_cons rfl rfl

/-- **A written expression spells its word** in front of anything that does not run into it. -/
theorem Expr.spells_render {e : Expr} (he : e.Writable) {chars : List Char} {xs : List Terminal}
    (hparts : Parts chars) (h : Spells chars xs) :
    Spells (e.render.toList ++ chars) (e.word ++ xs) := by
  induction e generalizing chars xs with
  | literal type text => exact .word he hparts h
  | var name => exact .word he hparts h
  | unary op operand ih =>
    rw [render, String.toList_append, List.append_assoc]
    exact spells_sign op (ih he hparts h)
  | binary op left right ihl ihr =>
    have htext : (binary op left right).render.toList ++ chars = '(' :: (left.render.toList ++
        ' ' :: (op.symbol.toList ++ ' ' :: (right.render.toList ++ ')' :: chars))) := by
      simp [render]
    have hword : (binary op left right).word ++ xs = ⟨.lparen, "("⟩ :: (left.word ++
        ⟨op.kind, op.symbol⟩ :: (right.word ++ ⟨.rparen, ")"⟩ :: xs)) := by
      simp [word]
    rw [htext, hword]
    have hclose : Spells (')' :: chars) (⟨.rparen, ")"⟩ :: xs) := .mark rfl rfl h
    have hright := spells_space (ihr he.2 (parts_cons rfl rfl) hclose)
    have hop := spells_space (spells_operator op hright)
    exact .mark rfl rfl (ihl he.1 (parts_space _) hop)

/-- A type and a name, as declarations and parameters have them. -/
theorem spells_typed {type : NumType} {name : String} (hname : IsName name) {chars : List Char}
    {xs : List Terminal} (hparts : Parts chars) (h : Spells chars xs) :
    Spells (type.name.toList ++ ' ' :: (name.toList ++ chars))
      (⟨type.keyword, type.name⟩ :: ⟨.ident, name⟩ :: xs) :=
  .word (spelled_keyword type) (parts_space _) (spells_space (.word hname hparts h))

namespace Stmt

theorem spells_declare {type : NumType} {name : String} (hname : IsName name) {chars : List Char}
    {xs : List Terminal} (h : Spells chars xs) :
    Spells ((declare type name).render.toList ++ chars) ((declare type name).word ++ xs) := by
  have htext : (declare type name).render.toList ++ chars =
      type.name.toList ++ ' ' :: (name.toList ++ ';' :: chars) := by
    simp [render]
  rw [htext]
  exact spells_typed hname (parts_cons rfl rfl) (.mark rfl rfl h)

theorem spells_assign {target : String} {value : Expr} (htarget : IsName target)
    (hvalue : value.Writable) {chars : List Char} {xs : List Terminal} (h : Spells chars xs) :
    Spells ((assign target value).render.toList ++ chars) ((assign target value).word ++ xs) := by
  have htext : (assign target value).render.toList ++ chars =
      target.toList ++ ' ' :: '=' :: ' ' :: (value.render.toList ++ ';' :: chars) := by
    simp [render]
  have hword : (assign target value).word ++ xs =
      ⟨.ident, target⟩ :: ⟨.assign, "="⟩ :: (value.word ++ ⟨.semi, ";"⟩ :: xs) := by
    simp [word]
  rw [htext, hword]
  have hend : Spells (';' :: chars) (⟨.semi, ";"⟩ :: xs) := .mark rfl rfl h
  have hright := spells_space (value.spells_render hvalue (parts_cons rfl rfl) hend)
  exact .word htarget (parts_space _) (spells_space (.mark rfl rfl hright))

theorem spells_block {body : List Stmt} (hbody : AllWritable body → ∀ {chars xs}, Spells chars xs →
      Spells ((renderEach body).toList ++ chars) (words body ++ xs))
    (hw : (block body).Writable) {chars : List Char} {xs : List Terminal} (h : Spells chars xs) :
    Spells ((block body).render.toList ++ chars) ((block body).word ++ xs) := by
  have htext : (block body).render.toList ++ chars =
      '\x7b' :: ((renderEach body).toList ++ ' ' :: '\x7d' :: chars) := by
    simp [render]
  have hword : (block body).word ++ xs =
      ⟨.lbrace, "\x7b"⟩ :: (words body ++ ⟨.rbrace, "\x7d"⟩ :: xs) := by
    simp [word]
  rw [htext, hword]
  have hend : Spells (' ' :: '\x7d' :: chars) (⟨.rbrace, "\x7d"⟩ :: xs) :=
    spells_space (.mark rfl rfl h)
  refine .mark rfl rfl ?_
  rcases hw with rfl | ⟨-, hall⟩
  · exact spells_space hend
  · exact hbody hall hend

mutual

/-- **A written statement spells its word** in front of anything, as it ends with a mark. -/
theorem spells_render : ∀ (s : Stmt) {chars : List Char} {xs : List Terminal}, s.Writable →
    Spells chars xs → Spells (s.render.toList ++ chars) (s.word ++ xs)
  | .declare _ _, _, _, hs, h => spells_declare hs h
  | .assign _ _, _, _, hs, h => spells_assign hs.1 hs.2 h
  | .block body, _, _, hs, h => spells_block (spells_renderEach body) hs h

theorem spells_renderEach : ∀ (ss : List Stmt), AllWritable ss → ∀ {chars : List Char}
    {xs : List Terminal}, Spells chars xs →
    Spells ((renderEach ss).toList ++ chars) (words ss ++ xs)
  | [], _, _, _, h => h
  | s :: ss, hss, chars, xs, h => by
    have htext : (renderEach (s :: ss)).toList ++ chars =
        ' ' :: (s.render.toList ++ ((renderEach ss).toList ++ chars)) := by
      simp [renderEach]
    rw [htext, words, List.append_assoc]
    exact spells_space (spells_render s hss.1 (spells_renderEach ss hss.2 h))

end

end Stmt

namespace Param

theorem spells_render {p : Param} (hp : IsName p.name) {chars : List Char} {xs : List Terminal}
    (hparts : Parts chars) (h : Spells chars xs) :
    Spells (p.render.toList ++ chars) (p.word ++ xs) := by
  have htext : p.render.toList ++ chars =
      p.type.name.toList ++ ' ' :: (p.name.toList ++ chars) := by
    simp [render]
  rw [htext]
  exact spells_typed hp hparts h

/-- Parameters with commas between them. -/
theorem spells_intercalate {ps : List Param} (hps : ∀ p ∈ ps, IsName p.name) {chars : List Char}
    {xs : List Terminal} (hparts : Parts chars) (h : Spells chars xs) :
    Spells ((", ".intercalate (ps.map render)).toList ++ chars) (words ps ++ xs) := by
  match ps with
  | [] => exact h
  | [p] =>
    rw [List.map_singleton, String.intercalate_singleton, words, List.flatMap_nil, List.append_nil]
    exact spells_render (hps p List.mem_cons_self) hparts h
  | p :: q :: ps =>
    obtain ⟨hp, hrest⟩ := List.forall_mem_cons.mp hps
    have ih := spells_intercalate hrest hparts h
    have htext : (", ".intercalate ((p :: q :: ps).map render)).toList ++ chars =
        p.render.toList ++ ',' :: ' ' ::
          ((", ".intercalate ((q :: ps).map render)).toList ++ chars) := by
      simp [String.intercalate_cons_cons]
    have hword : words (p :: q :: ps) ++ xs =
        p.word ++ ⟨.comma, ","⟩ :: (words (q :: ps) ++ xs) := by
      simp [words]
    rw [htext, hword]
    exact spells_render hp (parts_cons rfl rfl) (.mark rfl rfl (spells_space ih))

end Param

namespace Program

/-- **A written program spells its word.** -/
theorem spells_source {p : Program} (hp : p.Writable) : Spells p.source.toList p.word := by
  have htext : p.source.toList = functionKeyword.toList ++ ' ' :: (p.name.toList ++ '(' ::
      ((", ".intercalate (p.params.map Param.render)).toList ++ ')' :: ' ' ::
        ((Stmt.block p.body).render.toList ++ ['\n']))) := by
    simp [source, render]
  have hbody := (Stmt.block p.body).spells_render hp.body (Spells.blank (b := '\n') rfl .nil)
  have hclose := Spells.mark (x := ⟨.rparen, ")"⟩) rfl rfl (spells_space hbody)
  have hparams := Param.spells_intercalate hp.param_names (parts_cons rfl rfl) hclose
  have hopen := Spells.mark (x := ⟨.lparen, "("⟩) rfl rfl hparams
  have hname := Spells.word hp.name (parts_cons rfl rfl) hopen
  rw [List.append_nil] at hname
  rw [htext]
  exact .word isName_functionKeyword (parts_space _) (spells_space hname)

theorem parse_source {p : Program} (hp : p.Writable) (file : Option String) :
    Program.parse p.source file = .ok p := by
  have hspells : Spells (Cursor.ofText p.source file).rest p.word := spells_source hp
  obtain ⟨ts, hts, hword⟩ := Cursor.tokens_of_spells hspells
  refine parse_eq_ok_iff.mpr ⟨ts, hts, ?_⟩
  rw [hword]
  exact .mk (derivesFunction_word hp) rfl

end Program

/-- **Round trip**: a program that was read comes back, tree for tree, from its written form. -/
theorem parse_source_of_parse {text : String} {file : Option String} {p : Program}
    (h : Program.parse text file = .ok p) : Program.parse p.source none = .ok p :=
  Program.parse_source (Program.writable_of_parse h) none

/-- An empty block, differences that lean to the left and a numeral too large for 64 bits come
back. -/
theorem parse_source_of_parse_nested :
    ∃ p, Program.parse "function f(int a,int b)\x7b\x7b\x7dx=-a-2.-9223372036854775808*(b);\x7d"
        (some "nested") = .ok p ∧
      p.source = "function f(int a, int b) \x7b \x7b  \x7d " ++
        "x = ((-a - 2.) - (9223372036854775808 * b)); \x7d\n" ∧
      Program.parse p.source none = .ok p := by
  have h : Program.parse
      "function f(int a,int b)\x7b\x7b\x7dx=-a-2.-9223372036854775808*(b);\x7d" (some "nested") =
      .ok ⟨"f", [⟨.int, "a"⟩, ⟨.int, "b"⟩], [.block [.empty], .assign "x" (.binary .sub
        (.binary .sub (.unary .minus (.var "a")) (.literal .float "2."))
        (.binary .mul (.literal .float "9223372036854775808") (.var "b")))]⟩ := by decide +kernel
  exact ⟨_, h, by decide +kernel, parse_source_of_parse h⟩

end Abacus
