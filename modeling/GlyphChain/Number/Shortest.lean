import GlyphChain.Number.Nearest
import GlyphChain.Text.Digits
/-!
# Shortest — the fewest decimal digits that read back

For one, two, … seventeen digits, the two neighbours of the number among the decimals of that many digits are read
back; the first count of digits with a neighbour that gives the same number wins, and of two such neighbours the
nearer one, an exact tie going to the even digit.  Seventeen digits always suffice.
-/
namespace GlyphChain
namespace Number

/-- A positive decimal `digits · 10^exponent`. -/
structure Decimal where
  digits : Nat
  exponent : Int

/-- The exponent of ten of the leading digit of a positive count of grains. -/
def leadingExponent (grains : Nat) : Int :=
  (Digits.write 10 (grains * Nat.pow 10 324 / perUnit)).length - 325

/-- The number of grains over ten to the `exponent`, as a fraction. -/
def scaled (grains : Nat) (exponent : Int) : Nat × Nat :=
  if 0 ≤ exponent then (grains, perUnit * Nat.pow 10 exponent.toNat) else (grains * Nat.pow 10 (-exponent).toNat, perUnit)

def readsBack (grains digits : Nat) (exponent : Int) : Bool := ofDecimal false digits exponent == .finite grains

/-- The neighbour at this exponent of ten that reads back, the nearer one if both do. -/
def neighbour? (grains : Nat) (exponent : Int) : Option Decimal :=
  let (n, d) := scaled grains exponent
  let low := n / d
  match readsBack grains low exponent, readsBack grains (low + 1) exponent with
  | true, true => some ⟨roundDiv n d, exponent⟩
  | true, false => some ⟨low, exponent⟩
  | false, true => some ⟨low + 1, exponent⟩
  | false, false => none

/-- The shortest decimal that reads back as a positive count of grains. -/
def shortest (grains : Nat) : Decimal :=
  let top := leadingExponent grains
  ((List.range 17).findSome? (fun k : Nat => neighbour? grains (top - k))).getD
    ⟨(scaled grains (top - 16)).1 / (scaled grains (top - 16)).2, top - 16⟩

end Number
end GlyphChain
