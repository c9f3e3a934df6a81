import GlyphChain.Document.Basic
import GlyphChain.Document.Literal
/-!
# Value — documents as a program holds them

A number in a program is a double or an exact integer of any size, and the two are told apart: a count of rounds must
be a double, a key word an exact integer.  A number from a file is always a double.
-/
namespace GlyphChain

inductive Numeral
  | double (n : Number)
  | exact (x : Int)

abbrev Value := Doc Numeral

namespace Value

/-- The value that a written document stands for. -/
def ofWritten (d : Doc Literal) : Value := d.map (fun l => .double l.toNumber)

end Value
end GlyphChain
