/-!
# Reading numbers

`readInt?` takes an optional sign and digits, within the range of 64-bit integers. `readNumeral?`
takes an optional sign and then digits with at most one point and an optional power of ten, or one
of the words for infinity and for no number; it accepts every magnitude, and `Numeral.toFloat`
rounds to the nearest double.
-/

namespace Abacus.Decimal

/-- The number that a run of digits stands for. -/
def digitsValue (digits : List Char) : Nat :=
  digits.foldl (fun n c => 10 * n + (c.toNat - '0'.toNat)) 0

/-- A run of at least one digit. -/
def readNat? (cs : List Char) : Option Nat :=
  if cs.isEmpty then none
  else if cs.all Char.isDigit then some (digitsValue cs)
  else none

/-- Splits off an optional sign; true is a minus. -/
def splitSign : List Char → Bool × List Char
  | [] => (false, [])
  | c :: cs => if c = '-' then (true, cs) else if c = '+' then (false, cs) else (false, c :: cs)

/-- The whole number of a sign and a magnitude. -/
def signed (negative : Bool) (n : Nat) : Int := if negative then -n else n

/-- An optional sign and digits. -/
def readSigned? (cs : List Char) : Option Int :=
  let (negative, digits) := splitSign cs
  (readNat? digits).map (signed negative)

/-- Whether a number fits into 64 bits with a sign. -/
def fitsInt64 (z : Int) : Bool := -0x8000000000000000 ≤ z && z < 0x8000000000000000

/-- An optional sign and digits, within the range of 64-bit integers. -/
def readInt? (text : String) : Option Int :=
  (readSigned? text.toList).filter fitsInt64

/-- A number as it is written, before rounding: `digits * 10 ^ exponent` with a sign, an infinity,
or no number. -/
inductive Numeral where
  | nan
  | infinite (negative : Bool)
  | finite (negative : Bool) (digits : Nat) (exponent : Int)
deriving DecidableEq, Repr

/-- The power of ten at the end of a number: nothing, or an `e` and a whole number. -/
def readExponent? : List Char → Option Int
  | [] => some 0
  | c :: cs => if c = 'e' ∨ c = 'E' then readSigned? cs else none

/-- Digits with at most one point, at least one digit, and an optional power of ten. -/
def readFinite? (negative : Bool) (cs : List Char) : Option Numeral :=
  let whole := cs.takeWhile Char.isDigit
  let rest := cs.dropWhile Char.isDigit
  let (fraction, rest) :=
    match rest with
    | '.' :: rest => (rest.takeWhile Char.isDigit, rest.dropWhile Char.isDigit)
    | rest => ([], rest)
  if whole.isEmpty && fraction.isEmpty then none
  else
    (readExponent? rest).map fun exponent =>
      .finite negative (digitsValue (whole ++ fraction)) (exponent - fraction.length)

/-- A number in decimal notation, or a word for infinity or for no number, in any case. -/
def readNumeral? (text : String) : Option Numeral :=
  let (negative, cs) := splitSign text.toList
  let word := String.ofList (cs.map Char.toLower)
  if word = "inf" ∨ word = "infinity" then some (.infinite negative)
  else if word = "nan" then some .nan
  else readFinite? negative cs

/-- The nearest double. -/
def Numeral.toFloat : Numeral → Float
  | nan => Float.ofBits 0x7ff8000000000000
  | infinite negative => Float.ofBits (if negative then 0xfff0000000000000 else 0x7ff0000000000000)
  | finite negative digits exponent =>
    let x := Float.ofScientific digits (exponent < 0) exponent.natAbs
    if negative then -x else x

end Abacus.Decimal
