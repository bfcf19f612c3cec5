import Abacus.Position

/-!
# Tokens

The kinds of token, and a token as its kind, its text and the bytes it covers.
-/

namespace Abacus

/-- What a token is. No text is read as `funcDef` or `arg`; they are names for later use. -/
inductive TokenKind where
  | int
  | float
  | intConst
  | floatConst
  | mul
  | div
  | add
  | sub
  | eof
  | lparen
  | rparen
  | lbrace
  | rbrace
  | semi
  | assign
  | comma
  | ident
  | funcDef
  | arg
deriving DecidableEq, Repr

namespace TokenKind

/-- The name that messages use. -/
def name : TokenKind → String
  | int => "Int"
  | float => "Float"
  | intConst => "IntConst"
  | floatConst => "FloatConst"
  | mul => "Mul"
  | div => "Div"
  | add => "Add"
  | sub => "Sub"
  | eof => "EOF"
  | lparen => "LParen"
  | rparen => "RParen"
  | lbrace => "LBrace"
  | rbrace => "RBrace"
  | semi => "Semi"
  | assign => "Assign"
  | comma => "Comma"
  | ident => "Ident"
  | funcDef => "FuncDef"
  | arg => "Arg"

/-- Whether the text of a token of this kind varies. -/
def hasText : TokenKind → Bool
  | ident | intConst | floatConst => true
  | _ => false

end TokenKind

/-- A piece of the text: its kind, its characters and the bytes it covers. -/
structure Token where
  kind : TokenKind
  lexeme : String
  span : Span
deriving DecidableEq, Repr

namespace Token

/-- Whether the token is of one of the kinds. -/
def isAmong (t : Token) (kinds : List TokenKind) : Bool :=
  kinds.contains t.kind

/-- The kind and the text on lines of their own. -/
def text (t : Token) : String :=
  "Token \x7b\nkind: " ++ t.kind.name ++ ",\nlexeme: " ++ t.lexeme ++ "\x7d"

/-- The kind, with the text where it varies. -/
def line (t : Token) : String :=
  t.kind.name ++ " (" ++ (if t.kind.hasText then t.lexeme else "") ++ ")"

/-- How a message names the token: by its text, or by its kind if it has none. -/
def label (t : Token) : String :=
  if t.lexeme.isEmpty then t.kind.name else t.lexeme

/-- The line of the token trace. -/
def traceLine (t : Token) : String :=
  "Create " ++ t.kind.name ++ " token " ++ t.lexeme

end Token

end Abacus
