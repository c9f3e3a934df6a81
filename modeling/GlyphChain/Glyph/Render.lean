import GlyphChain.Glyph.Table
import GlyphChain.Text.LowerCase
import GlyphChain.Word.Bytes
/-!
# Render — words as glyphs

A word prints as the glyphs of its eight bytes, most significant first.  Zero bytes print nothing, and bytes past the
end of the table print the sentinel.  `line` takes the glyph of each byte, `lookupLine` what looking the byte up gives,
which is the same for every byte.
-/
namespace GlyphChain
namespace Glyph

/-- Whether a glyph lies between `A` and `Z` in the order of texts, unit by unit: a capital, or a longer text that starts
with a capital before the last. -/
def isCapital (g : Text) : Bool := decide ("A" ≤ g) && decide (g ≤ "Z")

/-- A glyph as it prints when capitals are lowered. -/
def lowered (g : Text) : Text := if isCapital g then g.lowerCase else g

def Table.glyph (table : Table) (b : UInt8) : Text := table[b.toNat]?.getD sentinel

/-- The bytes of a word that print. -/
def printed (x : Word) : List UInt8 := (Word.toBytes x).filter (· != 0)

def Table.render (table : Table) (lower : Bool) (words : List Word) : List Text :=
  words.flatMap (fun x => (printed x).map (fun b => if lower then lowered (table.glyph b) else table.glyph b))

/-- The glyphs of a list of words in one line. -/
def Table.line (table : Table) (lower : Bool) (words : List Word) : Text :=
  (table.render lower words).flatten ++ "\n"

/-- What looking up the bytes of a list of words gives, byte by byte. -/
def Table.lookups (table : Table) (lower : Bool) (words : List Word) : List (Option Text) :=
  words.flatMap fun x => (printed x).map fun b =>
    (table.lookup (.ofInt b.toNat)).map fun g => if lower then lowered g else g

/-- What looking up a list of words gives, in one line; where it gives nothing, nothing is printed. -/
def Table.lookupLine (table : Table) (lower : Bool) (words : List Word) : Text :=
  ((table.lookups lower words).map (·.getD [])).flatten ++ "\n"

end Glyph
end GlyphChain
