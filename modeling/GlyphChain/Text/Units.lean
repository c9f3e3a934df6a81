/-!
# Units — texts as lists of 16-bit units

A text is any list of units.  Two units make one code point where a high surrogate stands right before a low one, and
any other unit is a code point by itself, a surrogate without its partner too.  So texts joined end to end may have fewer
code points than they have apart: a surrogate that ends the first and one that begins the second become a pair.
-/
namespace GlyphChain

abbrev Text := List UInt16

namespace Text

def isHigh (u : UInt16) : Bool := 0xD800 ≤ u && u < 0xDC00

def isLow (u : UInt16) : Bool := 0xDC00 ≤ u && u < 0xE000

/-- The code points of a text, each as a text of its own. -/
def points : Text → List Text
  | [] => []
  | [u] => [[u]]
  | u :: v :: rest => if isHigh u && isLow v then [u, v] :: points rest else [u] :: points (v :: rest)

def code : Text → Nat
  | [u] => u.toNat
  | [u, v] => 0x10000 + (u.toNat - 0xD800) * 0x400 + (v.toNat - 0xDC00)
  | _ => 0

/-- The code point of a number: one unit, or a pair from 0x10000 on. -/
def ofCode (n : Nat) : Text :=
  if n < 0x10000 then [UInt16.ofNat n]
  else [UInt16.ofNat (0xD800 + (n - 0x10000) / 0x400), UInt16.ofNat (0xDC00 + (n - 0x10000) % 0x400)]

def ofChars (cs : List Char) : Text := cs.flatMap fun c => ofCode c.toNat

def ofString (s : String) : Text := ofChars s.toList

instance : Coe String Text := ⟨ofString⟩

/-- The units of a text as characters.  Half of a pair is no character, and counts as the one of number zero. -/
def chars (t : Text) : List Char := t.map fun u => Char.ofNat u.toNat

end Text
end GlyphChain
