import GlyphChain.Proofs.Glyph.Encoding
import GlyphChain.Proofs.Profile.RoundTrip
/-!
# Collision — which texts verify against one chain

A text verifies if its indexes, filled up with zeros, are the bytes of the decrypted words (`verify_iff_bytes`).  A
profile has but one chain of decrypted words, so the texts that verify have the same indexes filled up.  They part only
where the table cannot tell: in code points that it lacks, and in how many of index zero stand at the end.
-/
namespace GlyphChain
namespace Profile

open Word (low blockBits)
open Glyph (lowBytes padded)

variable {p : Profile}

/-- **A text verifies if its indexes, filled up with zeros, are the low bytes of the decrypted chain.** -/
theorem verify_iff_bytes (hg : p.glyphs.Checked) (text : Text) : p.verify text = true ↔
    (p.decrypted.map (low blockBits)).flatMap lowBytes = padded (text.points.map p.glyphs.index) := by
  have hfits := Word.fits_map_low blockBits p.decrypted
  rw [verify_iff_encode_eq, hg.encode_eq_iff]
  exact ⟨fun h => h.2, fun h => ⟨hfits, h⟩⟩

/-- **The texts that verify are one class**: if a text verifies against a profile that was read, another verifies exactly
if the indexes of its code points, each the first in the table or else that of the last entry, filled up with zeros to a
multiple of five, are those of the first text filled up so. -/
theorem verify_iff_same_indexes {source : String} {v : Value} (hp : ofValue source v = .ok p) {text other : Text}
    (htext : p.verify text = true) {indexes otherIndexes : List Int}
    (hi : List.Forall₂ p.glyphs.IndexOf text.points indexes)
    (hother : List.Forall₂ p.glyphs.IndexOf other.points otherIndexes) :
    p.verify other = true ↔ padded indexes = padded otherIndexes := by
  have hg := (accepted_of_ofValue hp).glyphs
  rw [verify_iff_bytes hg] at htext ⊢
  rw [Glyph.Table.eq_map_index hi, Glyph.Table.eq_map_index hother, htext]

/-- A profile that holds a text with a letter the table lacks: another such letter and spaces at the end make no
difference, a letter that is in the table does. -/
theorem verify_iff_same_indexes_missing :
    let p := reference.holding "HELLOa"
    ofValue "p" (.record p.exactFields) = .ok p ∧ p.verify "HELLOa" = true ∧ p.verify "HELLOb  " = true ∧
      p.verify "HELLOB" = false := by
  intro p
  have hp : ofValue "p" (.record p.exactFields) = .ok p :=
    ofValue_of_statedBy p.statedBy_exactFields (accepted_reference.holding (by decide)) "p"
  have htext : p.verify "HELLOa" = true := verify_holding reference "HELLOa"
  have hclass : ∀ other : Text, p.verify other = true ↔ padded ((Text.points "HELLOa").map p.glyphs.index) =
      padded (other.points.map p.glyphs.index) :=
    fun other => verify_iff_same_indexes hp htext (p.glyphs.forall₂_indexOf _) (p.glyphs.forall₂_indexOf _)
  refine ⟨hp, htext, (hclass _).2 (by decide +kernel), ?_⟩
  rw [← Bool.not_eq_true, hclass]
  decide +kernel

end Profile
end GlyphChain
