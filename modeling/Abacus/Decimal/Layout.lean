import Abacus.Decimal.Shortest

/-!
# Layouts of a decimal

The digits of a decimal written out in place, or with one digit before the point and a power of ten
after an `e`.
-/

namespace Abacus.Decimal

/-- A run of zeros. -/
def zeros (n : Nat) : String := String.ofList (List.replicate n '0')

namespace Scaled

/-- The digits, without sign or point. -/
def digitChars (d : Scaled) : List Char := Nat.toDigits 10 d.digits

/-- The power of ten of the first digit. -/
def leading (d : Scaled) : Int := d.digitChars.length + d.exponent - 1

/-- Whether the number is whole. -/
def isWhole (d : Scaled) : Bool := 0 ≤ d.exponent

/-- All digits in place, without an exponent. -/
def positional (d : Scaled) : String :=
  let digits := d.digitChars
  let point := digits.length + d.exponent
  if d.isWhole then String.ofList digits ++ zeros d.exponent.toNat
  else if 0 < point then
    String.ofList (digits.take point.toNat) ++ "." ++ String.ofList (digits.drop point.toNat)
  else "0." ++ zeros (-point).toNat ++ String.ofList digits

/-- One digit before the point, and the power of ten after an `e`. -/
def scientific (d : Scaled) : String :=
  let mantissa :=
    match d.digitChars with
    | [] => ""
    | [c] => String.ofList [c]
    | c :: cs => String.ofList [c, '.'] ++ String.ofList cs
  mantissa ++ "e" ++ toString d.leading

end Scaled

end Abacus.Decimal
