import Dbml.Decimal

/-!
# Numbers in double precision

A number in double precision is a binary fraction of 53 digits, kept here as an exact decimal. What
is written with a decimal point or an exponent stands for the nearest of them; of two that are
equally near, the one whose last binary digit is even. Beyond the largest they are infinite.
-/
namespace Dbml

inductive Number where
  | finite (value : Decimal)
  | infinite (negative : Bool)
  /-- The result of no calculation. -/
  | undefined
  deriving DecidableEq, Repr

/-- The quotient of two natural numbers, rounded to the nearest one. A half goes to the even one. -/
def roundDiv (n d : Nat) : Nat :=
  if 2 * (n % d) < d then n / d
  else if d < 2 * (n % d) then n / d + 1
  else n / d + n / d % 2

namespace Number

instance (n : Nat) : OfNat Number n := ⟨.finite (OfNat.ofNat n)⟩

instance : Inhabited Number := ⟨0⟩

/-- A power of two. -/
def twoPow (e : Nat) : Nat := Nat.pow 2 e

/-- The power of two in whose multiples `n / d` is rounded: the quotient has 53 binary digits in
front of it, or fewer where the power would be too small. -/
def unitExponent (n d : Nat) : Int :=
  let e : Int := n.log2 - d.log2 - 53
  let big := twoPow 53 * (d * twoPow e.toNat) ≤ n * twoPow (-e).toNat
  max (-1074) (if big then e + 1 else e)

/-- `q * 2 ^ e` as a number. -/
def ofBinary (negative : Bool) (q : Nat) (e : Int) : Number :=
  let sign : Int := if negative then -1 else 1
  if twoPow 1024 ≤ q * twoPow e.toNat then .infinite negative
  else .finite (.ofScaled (sign * (q * twoPow e.toNat * Nat.pow 5 (-e).toNat : Nat)) (-e).toNat)

/-- The number nearest to `n / d`, with a sign. -/
def ofRatio (negative : Bool) (n d : Nat) : Number :=
  let e := unitExponent n d
  ofBinary negative (roundDiv (n * twoPow (-e).toNat) (d * twoPow e.toNat)) e

/-- The number nearest to `m * 10 ^ e`, with a sign. What is far too large or far too small is
told without calculation. -/
def ofScientific (negative : Bool) (m : Nat) (e : Int) : Number :=
  if m = 0 then 0
  else if 400 < e then .infinite negative
  else if e + m.log2 < -400 then 0
  else ofRatio negative (m * Nat.pow 10 e.toNat) (Nat.pow 10 (-e).toNat)

/-- The number nearest to an integer; none for an integer that is too large. -/
def ofInt? (n : Int) : Option Number :=
  match ofRatio (n < 0) n.natAbs 1 with
  | .finite d => some (.finite d)
  | _ => none

/-- The first integer that has 64 binary digits. -/
def int64Limit : Int := Int.ofNat (twoPow 63)

/-- The integer that a number is, if it is one of less than 64 binary digits. -/
def toInt64? : Number → Option Int
  | .finite d => d.toInt?.filter fun n => -int64Limit < n && n < int64Limit
  | _ => none

end Number

end Dbml
