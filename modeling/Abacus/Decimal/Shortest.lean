import Abacus.Decimal.Binary64

/-!
# The shortest decimal that reads back

A positive double `m * 2 ^ q` is the nearest double of every real in an interval around it. Of the
decimals in that interval `shortest` takes one with the fewest digits, of those the nearest to the
double, and of two equally near the greater. All comparisons are of natural numbers.
-/

namespace Abacus.Decimal

/-- A decimal number: `digits * 10 ^ exponent`. -/
structure Scaled where
  digits : Nat
  exponent : Int
deriving DecidableEq, Repr

/-- Whether `d * 10 ^ t ≤ x * 2 ^ q`. -/
def decimalLe (d : Nat) (t : Int) (x : Nat) (q : Int) : Bool :=
  d * pow 10 t * pow 2 (-q) ≤ x * pow 2 q * pow 10 (-t)

/-- Whether `x * 2 ^ q ≤ d * 10 ^ t`. -/
def binaryLe (x : Nat) (q : Int) (d : Nat) (t : Int) : Bool :=
  x * pow 2 q * pow 10 (-t) ≤ d * pow 10 t * pow 2 (-q)

/-- The greatest `d` with `d * 10 ^ t ≤ m * 2 ^ q`. -/
def floorAt (m : Nat) (q t : Int) : Nat :=
  m * pow 2 q * pow 10 (-t) / (pow 10 t * pow 2 (-q))

/-- How far the interval reaches below `m`, in quarters of a unit: half a unit, or a quarter where
the doubles below lie twice as close. -/
def quartersBelow (m : Nat) (q : Int) : Nat :=
  if m = 0x10000000000000 ∧ -1074 < q then 1 else 2

/-- Whether `d * 10 ^ t` has `m * 2 ^ q` as its nearest double. An end of the interval is a tie,
which goes to the even `m`. -/
def readsBack (m : Nat) (q : Int) (d : Nat) (t : Int) : Bool :=
  let low := 4 * m - quartersBelow m q
  let high := 4 * m + 2
  if m % 2 = 0 then binaryLe low (q - 2) d t && decimalLe d t high (q - 2)
  else !decimalLe d t low (q - 2) && !binaryLe high (q - 2) d t

/-- The least `e` with `m * 2 ^ q < 10 ^ e`, found near the estimate from the binary logarithm. -/
def magnitude (m : Nat) (q : Int) : Int :=
  let estimate := (m.log2 + q) * 30103 / 100000
  if !decimalLe 1 (estimate - 1) m q then estimate - 1
  else if !decimalLe 1 estimate m q then estimate
  else if !decimalLe 1 (estimate + 1) m q then estimate + 1
  else estimate + 2

/-- The decimal on the grid of `10 ^ t` that reads back, if there is one: the nearer of the two
neighbours, and the upper if they are equally near. -/
def onGrid? (m : Nat) (q t : Int) : Option Scaled :=
  let down := floorAt m q t
  let up := down + 1
  let upIsNear := decimalLe (down + up) t (2 * m) q
  if readsBack m q down t then
    some ⟨if readsBack m q up t && upIsNear then up else down, t⟩
  else if readsBack m q up t then some ⟨up, t⟩
  else none

/-- The same number without final zeros among its digits. -/
def withoutZeros (digits : Nat) (exponent : Int) : Scaled :=
  if digits ≠ 0 ∧ digits % 10 = 0 then withoutZeros (digits / 10) (exponent + 1)
  else ⟨digits, exponent⟩
termination_by digits
decreasing_by omega

/-- The shortest decimal that reads back as `m * 2 ^ q`, which is not zero. Seventeen digits always
do. -/
def shortest (m : Nat) (q : Int) : Scaled :=
  let e := magnitude m q
  let found := (List.range 17).findSome? fun (n : Nat) => onGrid? m q (e - n - 1)
  let decimal := found.getD ⟨floorAt m q (e - 17), e - 17⟩
  withoutZeros decimal.digits decimal.exponent

end Abacus.Decimal
