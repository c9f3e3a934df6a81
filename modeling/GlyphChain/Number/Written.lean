import GlyphChain.Number.Shortest
/-!
# Written — the text of a number

The shortest digits that read back, laid out by where the decimal point falls: written out in full where that takes
few zeros, and with an exponent otherwise.  A whole number has no point.
-/
namespace GlyphChain
namespace Number

/-- Where plain notation ends: it is used while the point stands after more than `least` and at most `most` places,
counted from before the first digit. -/
structure Layout where
  least : Int
  most : Int

/-- Numbers from a millionth up to 10^21 are written out. -/
def layout : Layout := ⟨-6, 21⟩

/-- A numeral without the zeros at its end. -/
def stripZeros (cs : List Char) : List Char := (cs.reverse.dropWhile (· == '0')).reverse

/-- The digits `cs` with the point after `point` places. -/
def placePoint (cs : List Char) (point : Int) : List Char :=
  if layout.least < point ∧ point ≤ layout.most then
    if point ≤ 0 then '0' :: '.' :: (List.replicate (-point).toNat '0' ++ cs)
    else if cs.length ≤ point.toNat then cs ++ List.replicate (point.toNat - cs.length) '0'
    else cs.take point.toNat ++ '.' :: cs.drop point.toNat
  else
    let sign := if point - 1 < 0 then '-' else '+'
    let head := if cs.length ≤ 1 then cs else cs.take 1 ++ '.' :: cs.drop 1
    head ++ 'e' :: sign :: Digits.write 10 (point - 1).natAbs

/-- The text of a positive count of grains. -/
def writeGrains (grains : Nat) : List Char :=
  let d := shortest grains
  let cs := Digits.write 10 d.digits
  placePoint (stripZeros cs) (cs.length + d.exponent)

def text : Number → String
  | .nan => "NaN"
  | .infinite false => "Infinity"
  | .infinite true => "-Infinity"
  | .finite (.ofNat 0) => "0"
  | .finite (.ofNat g) => String.ofList (writeGrains g)
  | .finite (.negSucc g) => String.ofList ('-' :: writeGrains (g + 1))

end Number
end GlyphChain
