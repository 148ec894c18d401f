import Payroll.Decimal.Rounding
import Payroll.Decimal.Text

namespace Payroll

/-!
# Fractions kept in double precision

A fraction that a document gives as a bare number, not as text, is held in double precision
before it becomes a decimal.  What then counts is the shortest decimal that identifies the double.
In a file this is the double nearest to the fraction; in a message the digits and the power of ten
are rounded on their own, so that it can be a neighbour of that one.

Main definitions:

* `Double`: a positive number `m * 2 ^ q` of fifty-three bits.
* `Double.nearest?`: the double nearest to a quotient, ties to even.
* `Double.mul?`, `Double.div?`: product and quotient, rounded.
* `Double.ofDigits?`: digits and a power of ten, rounded one after the other.
* `Double.readsBack`: the decimals that have this double as their nearest one.
* `Double.shortest`: the fewest digits that read back; of two such decimals the nearer, on a tie
  the greater.
* `Decimal.ofFraction?`: a decimal from a fraction `± m * 10 ^ e`.
-/

/-- A positive number in double precision, `m * 2 ^ q`. -/
structure Double where
  m : Nat
  q : Int
  deriving DecidableEq, Repr

namespace Double

/-- The least exponent of a double. -/
def minExponent : Int := -1074

/-- The greatest exponent of a double. -/
def maxExponent : Int := 971

/-- The double nearest to `n / d`, ties to even; `none` beyond the greatest double. -/
def nearest? (n d : Nat) : Option Double :=
  let scaled (q : Int) : Nat × Nat := (n * pow2 (-q).toNat, d * pow2 q.toNat)
  let q₀ := Max.max ((n.log2 : Int) - d.log2 - 53) minExponent
  let q := if (scaled q₀).1 / (scaled q₀).2 < pow2 53 then q₀ else q₀ + 1
  let m := divHalfEven (scaled q).1 (scaled q).2
  let x := if m = pow2 53 then ⟨pow2 52, q + 1⟩ else ⟨m, q⟩
  if x.q ≤ maxExponent then some x else none

/-- The product, rounded. -/
def mul? (x y : Double) : Option Double :=
  nearest? (x.m * y.m * pow2 (x.q + y.q).toNat) (pow2 (-(x.q + y.q)).toNat)

/-- The quotient, rounded. -/
def div? (x y : Double) : Option Double :=
  nearest? (x.m * pow2 (x.q - y.q).toNat) (y.m * pow2 (y.q - x.q).toNat)

/-- The greatest `k` with `10 ^ k` in the range of a double. -/
def maxTen : Nat := 308

/-- Divides by `10 ^ k`, by no more than `10 ^ 308` at a time. -/
def divTen? (x : Double) (k : Nat) : Option Double := do
  if _h : k ≤ maxTen then x.div? (← nearest? (pow10 k) 1)
  else
    let y ← x.div? (← nearest? (pow10 maxTen) 1)
    y.divTen? (k - maxTen)
termination_by k
decreasing_by simp only [maxTen] at *; omega

/-- The double that stands for `m * 10 ^ e` if each step is rounded: the leading digits of `m` that
    fit sixty-four bits, the power of ten, and their product or quotient. -/
def ofDigits? (m : Nat) (e : Int) : Option Double := do
  if _h : m < pow2 64 then
    let x ← nearest? m 1
    if 0 ≤ e then
      if maxTen < e.toNat then none else x.mul? (← nearest? (pow10 e.toNat) 1)
    else x.divTen? (-e).toNat
  else ofDigits? (m / 10) (e + 1)
termination_by m
decreasing_by
  have : 0 < pow2 64 := by decide
  omega

/-- Compares `a * 10 ^ i` with `n * 2 ^ j`. -/
def compareScaled (a : Nat) (i : Int) (n : Nat) (j : Int) : Ordering :=
  compare (a * pow10 i.toNat * pow2 (-j).toNat) (n * pow2 j.toNat * pow10 (-i).toNat)

/-- Lies `a * 10 ^ i` among the numbers that round to this double?  They reach halfway to the
    neighbours, the lower of which is nearer below a power of two; the ends belong to an even
    `m`. -/
def readsBack (x : Double) (a : Nat) (i : Int) : Bool :=
  let narrow := x.m = pow2 52 ∧ minExponent < x.q
  let low := compareScaled a i (if narrow then 4 * x.m - 1 else 4 * x.m - 2) (x.q - 2)
  let high := compareScaled a i (4 * x.m + 2) (x.q - 2)
  if x.m % 2 = 0 then low != .lt && high != .gt else low == .gt && high == .lt

/-- The least `k` with `m * 2 ^ q < 10 ^ k`, found by stepping up from an estimate below it. -/
def magnitude (x : Double) : Int :=
  let start := ((x.m.log2 : Int) + x.q) * 30103 / 100000 - 1
  (((List.range 5).map fun j : Nat => start + j).find? fun k =>
    compareScaled 1 k x.m x.q == .gt).getD (start + 5)

/-- The decimal `a * 10 ^ i` of at most `n` digits that identifies the double, if there is one:
    one of the two neighbours of the double on the grid of `10 ^ i`. -/
def shortestOf? (x : Double) (n : Nat) : Option (Nat × Int) :=
  let i := x.magnitude - n
  let below := x.m * pow2 x.q.toNat * pow10 (-i).toNat / (pow2 (-x.q).toNat * pow10 i.toNat)
  match x.readsBack below i, x.readsBack (below + 1) i with
  | true, true =>
    if compareScaled (2 * below + 1) i (2 * x.m) x.q == .gt then some (below, i)
    else some (below + 1, i)
  | true, false => some (below, i)
  | false, true => some (below + 1, i)
  | false, false => none

/-- The shortest decimal `a * 10 ^ i` that identifies the double; seventeen digits always do. -/
def shortest (x : Double) : Nat × Int :=
  ((List.range 18).findSome? x.shortestOf?).getD
    (x.m * pow2 x.q.toNat * (pow10 (-x.q).toNat / pow2 (-x.q).toNat), -((-x.q).toNat : Int))

end Double

namespace Decimal

/-- The positional form of `a * 10 ^ i`. -/
def positional (a : Nat) (i : Int) : List Char :=
  if 0 ≤ i then Numeral.digits (a * pow10 i.toNat)
  else
    let places := (-i).toNat
    Numeral.digits (a / pow10 places) ++ '.' :: Numeral.fixedDigits 10 places (a % pow10 places)

/-- The decimal that a bare fraction `± m * 10 ^ e` is read as. -/
def ofFraction? (negative : Bool) (m : Nat) (e : Int) : Option Decimal :=
  if m = 0 then some zero
  else do
    let x ← Double.nearest? (m * pow10 e.toNat) (pow10 (-e).toNat)
    if x.m = 0 then some zero
    else
      let (a, i) := x.shortest
      let zeros := ((List.range 18).takeWhile fun k => a % pow10 (k + 1) = 0).length
      ofUnsigned? negative (positional (a / pow10 zeros) (i + zeros))

end Decimal

end Payroll
