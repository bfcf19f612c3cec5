import Abacus.Decimal.Layout
import Abacus.Decimal.Numeral
import Abacus.Fault
import Abacus.Program.Basic

/-!
# Values

A value is a double tagged with the type it was made as. Arithmetic is that of doubles whatever the
tag, so an `int` value may be fractional or infinite; the tag decides which operands go together and
how the value is written.
-/

namespace Abacus

open Abacus.Decimal

/-- A tagged number. -/
structure Value where
  type : NumType
  number : Float

namespace Value

/-- The `int` value nearest to a whole number. -/
def int (z : Int) : Value := ⟨.int, Float.ofInt z⟩

/-- A `float` value. -/
def float (x : Float) : Value := ⟨.float, x⟩

/-- The value of a variable that is declared and not yet assigned. -/
def zero (type : NumType) : Value := ⟨type, Float.ofInt 0⟩

/-- The value of a literal's text, read as a number of its type. -/
def ofLiteral (type : NumType) (text : String) : Except Fault Value :=
  let value? :=
    match type with
    | .int => (readInt? text).map int
    | .float => (readNumeral? text).map fun n => float n.toFloat
  match value? with
  | some value => .ok value
  | none => .error (.malformedNumeral text)

/-- The operation on doubles. -/
def apply (op : BinaryOp) (x y : Float) : Float :=
  match op with
  | .add => x + y
  | .sub => x - y
  | .mul => x * y
  | .div => x / y

/-- Two operands of one type give a value of that type; no operand is converted. -/
def binary (op : BinaryOp) (left right : Value) : Except Fault Value :=
  if left.type = right.type then .ok ⟨left.type, apply op left.number right.number⟩
  else .error (.typeMismatch op.symbol left.type.name right.type.name)

/-- A sign before an operand keeps its type. -/
def unary (op : UnaryOp) (operand : Value) : Value :=
  match op with
  | .plus => operand
  | .minus => ⟨operand.type, -operand.number⟩

/-- Values are equal if their types are and their numbers compare equal as doubles. -/
def beq (v w : Value) : Bool := v.type == w.type && v.number == w.number

instance : BEq Value := ⟨beq⟩

/-! ## Written form -/

/-- A minus sign, if there is one. -/
def signText (negative : Bool) : String := if negative then "-" else ""

/-- Whether a double lies between the bounds of the 64-bit integers, each rounded to a double. -/
def withinInt64 (x : Float) : Bool :=
  Float.ofInt Int64.minValue.toInt ≤ x && x < Float.ofInt Int64.maxValue.toInt

/-- The 64-bit integer that a double is cut off to; beyond the range it is the nearer bound, and for
no number it is zero. -/
def toInt64 (x : Float) : Int64 := x.toModel.toInt64

/-- A whole number is written as a 64-bit integer if it is within their range, and in full if not;
any other number with the fewest digits that read back, in place. -/
def intText (x : Float) : String :=
  match Binary64.ofBits x.toBits with
  | .nan => "NaN"
  | .infinite negative => signText negative ++ "inf"
  | .finite negative m q =>
    match Binary64.whole? m q with
    | some n =>
      if withinInt64 x then toString (toInt64 x) else signText negative ++ toString n
    | none => signText negative ++ (shortest m q).positional

/-- The fewest digits that read back: in place between `10 ^ -4` and `10 ^ 16`, a whole number with
a zero after the point, and with a power of ten elsewhere. Zero keeps its sign. -/
def floatText : Binary64 → String
  | .nan => "NaN"
  | .infinite negative => signText negative ++ "inf"
  | .finite negative m q =>
    if m = 0 then signText negative ++ "0.0"
    else
      let decimal := shortest m q
      let digits :=
        if decimal.leading < -4 ∨ 16 ≤ decimal.leading then decimal.scientific
        else if decimal.isWhole then decimal.positional ++ ".0"
        else decimal.positional
      signText negative ++ digits

/-- The written form of a value. -/
def text (v : Value) : String :=
  match v.type with
  | .int => intText v.number
  | .float => floatText (.ofBits v.number.toBits)

end Value

end Abacus
