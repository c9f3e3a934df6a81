import GlyphChain.Text.Digits
import GlyphChain.Word.Basic
/-!
# Written — words as hexadecimal text

A word is written as `0x` and its digits in lower case, filled up with zeros on the left; the fill counts the sign of
a negative word among the digits and stands before it.  A word that is too long is not cut.
-/
namespace GlyphChain
namespace Word

def blockDigits : Int := 10

/-- The text of a word with at least `digits` places. -/
def toHex (digits : Int) (x : Word) : String :=
  String.ofList ('0' :: 'x' :: (Digits.writeInt 16 x).leftpad digits.toNat '0')

/-- The text of a word with the places of a block word. -/
def hex (x : Word) : String := toHex blockDigits x

end Word
end GlyphChain
