/-!
# Number — double-precision numbers as exact quantities

Every finite double is a whole multiple of the least positive one, 2^-1074, so a finite number is held as that count
of grains: two finite numbers are the same exactly if their counts are, and comparing them or testing for a whole
number is done in the integers.  The two zeros are one number here, since no answer tells them apart.
-/
namespace GlyphChain

/-- A double-precision number. -/
inductive Number
  | nan
  | infinite (negative : Bool)
  | finite (grains : Int)
  deriving DecidableEq

namespace Number

/-- How many grains make one. -/
@[irreducible] def perUnit : Nat := Nat.pow 2 1074

/-- The greatest whole number whose neighbours are all exact as well. -/
def maxSafe : Nat := Nat.pow 2 53 - 1

/-- A whole number, exactly. -/
def ofInt (n : Int) : Number := .finite (n * perUnit)

/-- The integer that a number is, if it is one. -/
def toInt? : Number → Option Int
  | .finite g => if g % perUnit = 0 then some (g / perUnit) else none
  | _ => none

/-- The integer that a number is, if it is one of at most `maxSafe` in size. -/
def toSafe? (n : Number) : Option Int := n.toInt?.filter (fun i => i.natAbs ≤ maxSafe)

/-- Whether a number is less than a natural one; NaN is not. -/
def below : Number → Nat → Bool
  | .nan, _ => false
  | .infinite negative, _ => negative
  | .finite g, n => g < n * perUnit

/-- Whether a number is more than a natural one; NaN is not. -/
def exceeds : Number → Nat → Bool
  | .nan, _ => false
  | .infinite negative, _ => !negative
  | .finite g, n => n * perUnit < g

theorem perUnit_pos : 0 < perUnit := by
  have h : ∀ n, 0 < Nat.pow 2 n := Nat.two_pow_pos
  unfold perUnit
  exact h 1074

@[simp] theorem toInt?_ofInt (n : Int) : (ofInt n).toInt? = some n := by
  have h : (perUnit : Int) ≠ 0 := by have := perUnit_pos; omega
  simp only [ofInt, toInt?, Int.mul_emod_left, Int.mul_ediv_cancel n h, if_true]

/-- **A whole number is below a natural one as integers are.** -/
@[simp] theorem below_ofInt (n : Int) (m : Nat) : (ofInt n).below m = decide (n < m) := by
  have h : (0 : Int) < perUnit := by have := perUnit_pos; omega
  simp only [ofInt, below, Int.mul_lt_mul_right h]

/-- **A whole number exceeds a natural one as integers do.** -/
@[simp] theorem exceeds_ofInt (n : Int) (m : Nat) : (ofInt n).exceeds m = decide ((m : Int) < n) := by
  have h : (0 : Int) < perUnit := by have := perUnit_pos; omega
  simp only [ofInt, exceeds, Int.mul_lt_mul_right h]

end Number
end GlyphChain
