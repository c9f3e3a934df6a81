import GlyphChain.Number.Basic
/-!
# Nearest — the double nearest to a fraction or a decimal

A fraction is measured in grains; of the whole part's bits the first 53 are kept, and the quotient by what they leave
is rounded to the nearest, a half to the even neighbour.  Below 53 bits nothing is left over, which is how the
smallest numbers lose precision gradually.  From 2^1024 on the result is infinite.
-/
namespace GlyphChain
namespace Number

/-- The natural number nearest to `n / d`; of two that are equally near, the even one. -/
def roundDiv (n d : Nat) : Nat :=
  if 2 * (n % d) < d ∨ (2 * (n % d) = d ∧ n / d % 2 = 0) then n / d else n / d + 1

/-- How many low bits of a count of grains a double does not keep. -/
def spareBits (grains : Nat) : Nat := grains.log2 - 52

/-- The count of grains of the double nearest to `n / d`, with no bound on its size. -/
def nearestGrains (n d : Nat) : Nat :=
  let unit := Nat.pow 2 (spareBits (n * perUnit / d))
  roundDiv (n * perUnit) (d * unit) * unit

/-- The count of grains from which on a number is infinite. -/
def overflow : Nat := Nat.pow 2 1024 * perUnit

/-- The double nearest to `n / d`, or to its negative. -/
def ofFraction (negative : Bool) (n d : Nat) : Number :=
  if overflow ≤ nearestGrains n d then .infinite negative
  else .finite (if negative then -(nearestGrains n d : Int) else nearestGrains n d)

/-- The double nearest to `digits · 10^exponent`, or to its negative.  An exponent that decides the answer by itself,
far above or below the range, is never raised to its power. -/
def ofDecimal (negative : Bool) (digits : Nat) (exponent : Int) : Number :=
  if digits = 0 then .finite 0
  else if 309 ≤ exponent then .infinite negative
  else if exponent + digits.log2 + 400 < 0 then .finite 0
  else if 0 ≤ exponent then ofFraction negative (digits * Nat.pow 10 exponent.toNat) 1
  else ofFraction negative digits (Nat.pow 10 (-exponent).toNat)

end Number
end GlyphChain
