import GlyphChain.Glyph.Table
import GlyphChain.Word.Bytes
/-!
# Encode — texts as words

A code point becomes the byte of its first place in the table, or of the table's last entry if it has none; five bytes
make a word, first byte most significant, and a short last word is filled up with zero bytes.  `encode` packs the bytes
at once, `encodeSlices` slice by slice with each slice checked for its length; the two are the same.
-/
namespace GlyphChain
namespace Glyph

/-- How many glyphs are packed into a word. -/
def perWord : Nat := 5

/-- The index of a code point: its first place, or that of the last entry, which in an empty table is one before zero. -/
def Table.index (table : Table) (c : Text) : Int :=
  match table.findIdx? (· == c) with
  | some i => i
  | none => table.length - 1

/-- The byte of a code point: its index, cut to eight bits. -/
def Table.byte (table : Table) (c : Text) : UInt8 := UInt8.ofNat (table.index c % 256).toNat

/-- Bytes packed into words. -/
def pack : List UInt8 → List Word
  | a :: b :: c :: d :: e :: rest => (Word.bytesValue [a, b, c, d, e] : Word) :: pack rest
  | [] => []
  | short => [(Word.bytesValue (short.rightpad perWord 0) : Word)]

def Table.encode (table : Table) (text : Text) : List Word := pack (text.points.map table.byte)

/-- The words of the slices of five bytes, the last one filled up, each read by the check of a word's bytes. -/
def packSlices (bytes : List UInt8) : Except Fault (List Word) :=
  (List.range ((bytes.length + 4) / 5)).mapM fun k =>
    Word.ofBytes (((bytes.drop (perWord * k)).take perWord).rightpad perWord 0)

/-- The words of a text, packed slice by slice. -/
def Table.encodeSlices (table : Table) (text : Text) : Except Fault (List Word) := packSlices (text.points.map table.byte)

end Glyph
end GlyphChain
