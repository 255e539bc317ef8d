/-!
# Exact decimals

A number with finitely many decimal places, kept exactly and in lowest terms, so that two decimals
are the same number only if they are equal.
-/
namespace Dbml

/-- The number `mantissa / 10 ^ places`, in lowest terms. -/
@[ext] structure Decimal where
  mantissa : Int
  places : Nat
  reduced : places = 0 ∨ mantissa % 10 ≠ 0
  deriving DecidableEq, Repr

namespace Decimal

/-- The number `m / 10 ^ places`. -/
def ofScaled (m : Int) : Nat → Decimal
  | 0 => ⟨m, 0, .inl rfl⟩
  | n + 1 => if h : m % 10 = 0 then ofScaled (m / 10) n else ⟨m, n + 1, .inr h⟩

/-- An integer as a decimal. -/
def ofInt (n : Int) : Decimal := ⟨n, 0, .inl rfl⟩

instance (n : Nat) : OfNat Decimal n := ⟨ofInt n⟩

instance : Inhabited Decimal := ⟨0⟩

/-- The integer that a decimal is, if it is one. -/
def toInt? (d : Decimal) : Option Int := if d.places = 0 then some d.mantissa else none

@[simp] theorem toInt?_ofInt (n : Int) : (ofInt n).toInt? = some n := rfl

end Decimal

end Dbml
