import GlyphChain.Text.Units
/-!
# Blank — white space around a text

What trimming takes off both ends of a text: the line ends, the tab and form controls, every space separator, and the
zero-width no-break space.  Next line (U+0085), the information separators and the zero-width space are not among them.
Every blank is one unit, so a text can be trimmed by its units as well as by its characters.
-/
namespace GlyphChain
namespace Text

/-- The ranges of blank code points, both ends included, in ascending order. -/
def blankRanges : List (Nat × Nat) :=
  [(0x9, 0xD), (0x20, 0x20), (0xA0, 0xA0), (0x1680, 0x1680), (0x2000, 0x200A), (0x2028, 0x2029), (0x202F, 0x202F),
   (0x205F, 0x205F), (0x3000, 0x3000), (0xFEFF, 0xFEFF)]

/-- Whether a number is that of a blank. -/
def isBlank (n : Nat) : Bool := blankRanges.any (fun r => r.1 ≤ n && n ≤ r.2)

def blankUnit (u : UInt16) : Bool := isBlank u.toNat

def blankChar (c : Char) : Bool := isBlank c.toNat

/-- A list without the blanks at its two ends. -/
def strip {α : Type} (blank : α → Bool) (xs : List α) : List α :=
  ((xs.dropWhile blank).reverse.dropWhile blank).reverse

def trim (t : Text) : Text := strip blankUnit t

def trimString (s : String) : String := String.ofList (strip blankChar s.toList)

end Text
end GlyphChain
