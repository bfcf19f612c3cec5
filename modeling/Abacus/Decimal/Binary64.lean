/-!
# Doubles as exact numbers

A finite double is a sign and `m * 2 ^ q` for natural `m`. `Binary64.ofBits` reads the three from
the 64 bits: one of sign, eleven of exponent, fifty-two of fraction.
-/

namespace Abacus.Decimal

/-- A power with a natural exponent; a negative one counts as zero. -/
def pow (base : Nat) (exponent : Int) : Nat := Nat.pow base exponent.toNat

/-- What a double stands for: a finite one for `m * 2 ^ q` with a sign. -/
inductive Binary64 where
  | nan
  | infinite (negative : Bool)
  | finite (negative : Bool) (m : Nat) (q : Int)
deriving DecidableEq, Repr

namespace Binary64

/-- Reads the fields of the bit pattern. -/
def ofBits (bits : UInt64) : Binary64 :=
  let fraction : Nat := bits.toNat % 0x10000000000000
  let exponent : Nat := bits.toNat / 0x10000000000000 % 0x800
  let negative : Bool := 0x8000000000000000 ≤ bits.toNat
  if exponent = 0x7ff then
    if fraction = 0 then infinite negative else nan
  else if exponent = 0 then finite negative fraction (-1074)
  else finite negative (0x10000000000000 + fraction) (exponent - 1075 : Int)

/-- The magnitude `m * 2 ^ q` if it is a whole number. -/
def whole? (m : Nat) (q : Int) : Option Nat :=
  if 0 ≤ q then some (m * pow 2 q)
  else if m % pow 2 (-q) = 0 then some (m / pow 2 (-q))
  else none

end Binary64

end Abacus.Decimal
