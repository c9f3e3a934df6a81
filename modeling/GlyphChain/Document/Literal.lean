import GlyphChain.Number.Nearest
import GlyphChain.Text.Digits
/-!
# Literal — numbers as a file spells them

A number literal is an optional minus sign, digits without a leading zero, an optional fraction and an optional power
of ten.  It is kept exactly, as `digits · 10^exponent`, and becomes the nearest double only when a program asks for
one.
-/
namespace GlyphChain

/-- The exact number `± digits · 10^exponent`. -/
structure Literal where
  negative : Bool
  digits : Nat
  exponent : Int

namespace Literal

def isDigit (c : Char) : Bool := '0' ≤ c && c ≤ '9'

/-- The value of a run of decimal digits, zero for none. -/
def digitsValue (cs : List Char) : Nat := (Digits.read? 10 cs).getD 0

/-- A minus sign, if there is one, and what follows it. -/
def splitSign : List Char → Bool × List Char
  | '-' :: cs => (true, cs)
  | cs => (false, cs)

/-- Digits that may stand before the point: at least one, and no zero before another. -/
def isWhole : List Char → Bool
  | [] => false
  | ['0'] => true
  | c :: _ => c != '0'

/-- The digits after a point, if there is one, and what follows them; a point needs a digit. -/
def splitFraction? : List Char → Option (List Char × List Char)
  | '.' :: cs =>
    if (cs.takeWhile isDigit).isEmpty then none else some (cs.takeWhile isDigit, cs.dropWhile isDigit)
  | cs => some ([], cs)

/-- The power of ten that ends a literal, zero if there is none. -/
def power? : List Char → Option Int
  | [] => some 0
  | c :: cs =>
    if c == 'e' || c == 'E' then
      match cs with
      | '-' :: ds => (Digits.read? 10 ds).map (fun n => -(n : Int))
      | '+' :: ds => (Digits.read? 10 ds).map Int.ofNat
      | ds => (Digits.read? 10 ds).map Int.ofNat
    else none

/-- The literal that a text is, if it is one. -/
def ofChars? (cs : List Char) : Option Literal :=
  let (negative, body) := splitSign cs
  let whole := body.takeWhile isDigit
  if isWhole whole then
    (splitFraction? (body.dropWhile isDigit)).bind fun (fraction, rest) =>
      (power? rest).map fun power => ⟨negative, digitsValue (whole ++ fraction), power - fraction.length⟩
  else none

def toNumber (l : Literal) : Number := Number.ofDecimal l.negative l.digits l.exponent

end Literal
end GlyphChain
