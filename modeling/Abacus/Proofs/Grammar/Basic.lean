import Abacus.Program.Basic
import Abacus.Token

/-!
# The grammar

A language is a set of words over terminals, each word with the tree it stands for. The rules are
those of the EBNF, one inductive relation per nonterminal:

* `Star X` — any number of words of `X` in a row, and `Chain ops X` — operands joined by operators,
  leaning to the left. Both take the language they repeat, so one rule serves every level.
* `DerivesFactor`, `DerivesTerm`, `DerivesExpr` — expressions; the operators `*` and `/` bind
  tighter than `+` and `-`.
* `DerivesCompound`, `DerivesStmt` — statements; braces with nothing between them stand for the one
  statement `empty`.
* `DerivesProgram` — a function and the end of the text.

A word is `Viable` if some program starts with it.
-/

namespace Abacus

/-- What the grammar sees of a token: its kind and its text, not its place. -/
structure Terminal where
  kind : TokenKind
  lexeme : String
deriving DecidableEq, Repr

theorem Terminal.eq_mk {t : Terminal} {k : TokenKind} (h : t.kind = k) : t = ⟨k, t.lexeme⟩ := by
  rw [← h]

/-- The token without its place. -/
def Token.terminal (t : Token) : Terminal := ⟨t.kind, t.lexeme⟩

/-- The terminals of some tokens. -/
abbrev terminals (ts : List Token) : List Terminal := ts.map Token.terminal

/-- The kind of the token for an operator. -/
def BinaryOp.kind : BinaryOp → TokenKind
  | add => .add
  | sub => .sub
  | mul => .mul
  | div => .div

/-- The kind of the token for a sign. -/
def UnaryOp.kind : UnaryOp → TokenKind
  | plus => .add
  | minus => .sub

/-- The kind of the keyword for a type. -/
def NumType.keyword : NumType → TokenKind
  | int => .int
  | float => .float

/-- The kind of the numerals of a type. -/
def NumType.numeral : NumType → TokenKind
  | int => .intConst
  | float => .floatConst

theorem BinaryOp.kind_inj {op op' : BinaryOp} (h : op.kind = op'.kind) : op = op' := by
  cases op <;> cases op' <;> first | rfl | cases h

theorem UnaryOp.kind_inj {op op' : UnaryOp} (h : op.kind = op'.kind) : op = op' := by
  cases op <;> cases op' <;> first | rfl | cases h

theorem NumType.keyword_inj {type type' : NumType} (h : type.keyword = type'.keyword) :
    type = type' := by
  cases type <;> cases type' <;> first | rfl | cases h

theorem NumType.numeral_inj {type type' : NumType} (h : type.numeral = type'.numeral) :
    type = type' := by
  cases type <;> cases type' <;> first | rfl | cases h

/-- A set of words, each with a tree. -/
abbrev Lang (α : Type) := List Terminal → α → Prop

namespace Grammar

/-- `X*`: words of `X` in a row, and their trees in order. -/
inductive Star {α : Type} (X : Lang α) : Lang (List α)
  | nil : Star X [] []
  | cons {w u : List Terminal} {a : α} {as : List α} (ha : X w a) (has : Star X u as) :
      Star X (w ++ u) (a :: as)

/-- Operands joined by operators of `ops`; the tree leans to the left. -/
inductive Chain (ops : List BinaryOp) (operand : Lang Expr) : Lang Expr
  | one {w : List Terminal} {e : Expr} (he : operand w e) : Chain ops operand w e
  | more {w u : List Terminal} {l r : Expr} {op : BinaryOp} {t : Terminal}
      (hl : Chain ops operand w l) (hop : op ∈ ops) (ht : t.kind = op.kind) (hr : operand u r) :
      Chain ops operand (w ++ t :: u) (.binary op l r)

/-- `("+" | "-") Factor | INT | FLOAT | "(" Expr ")" | NAME`. -/
inductive DerivesFactor : Lang Expr
  | sign {t : Terminal} {op : UnaryOp} {w : List Terminal} {e : Expr} (ht : t.kind = op.kind)
      (he : DerivesFactor w e) : DerivesFactor (t :: w) (.unary op e)
  | literal {t : Terminal} {type : NumType} (ht : t.kind = type.numeral) :
      DerivesFactor [t] (.literal type t.lexeme)
  | group {l r : Terminal} {w : List Terminal} {e : Expr} (hl : l.kind = .lparen)
      (he : Chain [.add, .sub] (Chain [.mul, .div] DerivesFactor) w e) (hr : r.kind = .rparen) :
      DerivesFactor (l :: w ++ [r]) e
  | var {t : Terminal} (ht : t.kind = .ident) : DerivesFactor [t] (.var t.lexeme)

/-- `Factor (("*" | "/") Factor)*`. -/
abbrev DerivesTerm : Lang Expr := Chain [.mul, .div] DerivesFactor

/-- `Term (("+" | "-") Term)*`. -/
abbrev DerivesExpr : Lang Expr := Chain [.add, .sub] DerivesTerm

/-- `"{" "}" | "{" Stmt+ "}"`. -/
inductive Compound (stmt : Lang Stmt) : Lang (List Stmt)
  | empty {l r : Terminal} (hl : l.kind = .lbrace) (hr : r.kind = .rbrace) :
      Compound stmt [l, r] [.empty]
  | full {l r : Terminal} {w : List Terminal} {ss : List Stmt} (hl : l.kind = .lbrace)
      (hss : Star stmt w ss) (hne : ss ≠ []) (hr : r.kind = .rbrace) :
      Compound stmt (l :: w ++ [r]) ss

/-- `Compound | NAME "=" Expr ";" | Type NAME ";"`. -/
inductive DerivesStmt : Lang Stmt
  | block {w : List Terminal} {ss : List Stmt} (hss : Compound DerivesStmt w ss) :
      DerivesStmt w (.block ss)
  | assign {x eq semi : Terminal} {w : List Terminal} {e : Expr} (hx : x.kind = .ident)
      (heq : eq.kind = .assign) (he : DerivesExpr w e) (hsemi : semi.kind = .semi) :
      DerivesStmt (x :: eq :: w ++ [semi]) (.assign x.lexeme e)
  | declare {k x semi : Terminal} {type : NumType} (hk : k.kind = type.keyword)
      (hx : x.kind = .ident) (hsemi : semi.kind = .semi) :
      DerivesStmt [k, x, semi] (.declare type x.lexeme)

/-- A block with its braces. -/
abbrev DerivesCompound : Lang (List Stmt) := Compound DerivesStmt

/-- `Type NAME`. -/
inductive DerivesParam : Lang Param
  | mk {k x : Terminal} {type : NumType} (hk : k.kind = type.keyword) (hx : x.kind = .ident) :
      DerivesParam [k, x] ⟨type, x.lexeme⟩

/-- `"," Param`. -/
inductive DerivesNextParam : Lang Param
  | mk {c : Terminal} {w : List Terminal} {p : Param} (hc : c.kind = .comma)
      (hp : DerivesParam w p) : DerivesNextParam (c :: w) p

/-- `Param ("," Param)*`. -/
inductive DerivesParams : Lang (List Param)
  | mk {w u : List Terminal} {p : Param} {ps : List Param} (hp : DerivesParam w p)
      (hps : Star DerivesNextParam u ps) : DerivesParams (w ++ u) (p :: ps)

/-- `"function" NAME "(" Params ")" Compound`. -/
inductive DerivesFunction : Lang Program
  | mk {fn x l r : Terminal} {u w : List Terminal} {params : List Param} {body : List Stmt}
      (hfn : fn.kind = .ident) (hword : fn.lexeme = "function") (hx : x.kind = .ident)
      (hl : l.kind = .lparen) (hparams : DerivesParams u params) (hr : r.kind = .rparen)
      (hbody : DerivesCompound w body) :
      DerivesFunction (fn :: x :: l :: u ++ r :: w) ⟨x.lexeme, params, body⟩

/-- `Function EOF`. -/
inductive DerivesProgram : Lang Program
  | mk {w : List Terminal} {p : Program} {eof : Terminal} (hp : DerivesFunction w p)
      (heof : eof.kind = .eof) : DerivesProgram (w ++ [eof]) p

/-- Some program starts with these terminals. -/
def Viable (w : List Terminal) : Prop := ∃ u p, DerivesProgram (w ++ u) p

end Grammar

end Abacus
