import GlyphChain.Document.Value
import GlyphChain.Fault
/-!
# Table — glyphs by byte

A glyph table lists the glyphs that the bytes from zero on print as.  A checked table has between 1 and 256 entries of
one code point each; the functions on tables take unchecked ones as well.
-/
namespace GlyphChain
namespace Glyph

abbrev Table := List Text

/-- What a byte past the end of the table prints as. -/
def sentinel : Text := "?"

def maxLength : Nat := 256

/-- The glyph that a value is: a text of one code point. -/
def single? : Value → Option Text
  | .text s => if s.points.length = 1 then some s else none
  | _ => none

/-- The glyphs of a list of values, the first at index `i`; the least bad index is the one at fault. -/
def singlesFrom (i : Nat) : List Value → Except TableFault Table
  | [] => .ok []
  | v :: vs =>
    match single? v with
    | none => .error (.entry i)
    | some g => (singlesFrom (i + 1) vs).map (g :: ·)

def Table.ofValues (field : String) (vs : List Value) : Except Fault Table :=
  if vs.isEmpty then .error (.table field .empty)
  else if maxLength < vs.length then .error (.table field (.tooLong vs.length))
  else (singlesFrom 0 vs).mapError (.table field)

/-- The glyph at a number: the sentinel unless the number is less than the length, and nothing if it is less but is no
index. -/
def Table.lookup (table : Table) (n : Number) : Option Text :=
  if n.below table.length then
    match n.toInt? with
    | some (.ofNat i) => table[i]?
    | _ => none
  else some sentinel

/-- The table of a profile that has none of its own. -/
def Table.standard : Table := List.map Text.ofString
  [" ", "A", "B", "C", "D", "E", "F", "G", "H", "I", "'", "J", "K", "L", "M", "N",
   "O", "P", "Q", "R", "°", "\"", "S", "T", "U", "V", "W", "X", "Y", "Z", "0", "1",
   "2", "3", "4", "5", "6", "7", "8", "9", ".", ",", "(", ")", "+", "-", "*", "/",
   "=", "$", "<", ">", "@", ";", ":", "‚"]

end Glyph
end GlyphChain
