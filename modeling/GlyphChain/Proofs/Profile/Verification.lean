import GlyphChain.Proofs.Cipher.ChainInverse
import GlyphChain.Proofs.Glyph.Layout
import GlyphChain.Proofs.Profile.Accepted
/-!
# Verification — checking a text against a chain, forwards and backwards

Verifying a text goes forwards: it encrypts the words of the text and compares them with the chain.  Decrypting comes
back from the chain.  Since encrypting and decrypting undo each other on words of 40 bits, and both go along with
cutting words to 40 bits, the two agree (`verify_iff_encode_eq`), and a chain that verifies prints the text as the table
can write it.
-/
namespace GlyphChain
namespace Profile

open Word (low blockBits storageBits Fits)

variable {p : Profile}

/-- **A text verifies if its words are the low 40 bits of the decrypted chain.** -/
theorem verify_iff_encode_eq (p : Profile) (text : Text) :
    p.verify text = true ↔ p.glyphs.encode text = p.decrypted.map (low blockBits) := by
  have hfits := p.glyphs.fits_encode text
  unfold verify encrypt decrypted
  rw [decide_eq_true_iff]
  constructor
  · intro h
    rw [← p.params.decryptChain_map_low, ← h, p.params.decryptChain_encryptChain hfits]
  · intro h
    -- cutting the chain first makes it one of 40 bits, on which encrypting undoes decrypting
    rw [h, ← p.params.decryptChain_map_low, p.params.encryptChain_decryptChain (Word.fits_map_low _ _)]

/-- **The decrypted words have 40 bits** if a block has gone over the chain or its only word was of that size. -/
theorem fits_decrypted (ha : p.Accepted) (h : 2 ≤ p.chain.length ∨ ∀ w ∈ p.chain, w < Word.span blockBits) :
    ∀ w ∈ p.decrypted, Fits blockBits w := by
  rcases h with h | h
  · exact p.params.fits_decryptChain_of_two h
  · exact p.params.fits_decryptChain (fun w hw => ⟨(ha.chain w hw).1, h w hw⟩)

/-- **What a chain of 40-bit words that verifies prints.** -/
theorem line_of_verify {text : Text} (hg : p.glyphs.Checked) (hfits : ∀ w ∈ p.decrypted, Fits blockBits w)
    (h : p.verify text = true) : p.line false = p.glyphs.normalized text ++ "\n" := by
  rw [verify_iff_encode_eq, Word.map_low_eq_self hfits] at h
  rw [line, ← h, p.glyphs.line_encode hg]

/-- **Verifying agrees with decrypting**: for a profile that was read and any text, the text verifies exactly if its words
are the low 40 bits of the decrypted ones; and if the chain has two words or more, or one of 40 bits, then a text that
verifies is what the chain prints, each code point as the table's entry for it and those of entry zero left out. -/
theorem verify_agrees_with_decrypted {source : String} {v : Value} (hp : ofValue source v = .ok p) (text : Text) :
    (p.verify text = true ↔ p.glyphs.encode text = p.decrypted.map (low blockBits)) ∧
    (2 ≤ p.chain.length ∨ (∃ w, p.chain = [w] ∧ w < Word.span blockBits) → p.verify text = true →
      p.line false = p.glyphs.normalized text ++ "\n") := by
  have ha := accepted_of_ofValue hp
  refine ⟨verify_iff_encode_eq p text, fun hsize hv => ?_⟩
  refine line_of_verify ha.glyphs (fits_decrypted ha ?_) hv
  rcases hsize with hlen | ⟨w, hw, hlt⟩
  · exact .inl hlen
  · refine .inr (fun x hx => ?_)
    rw [hw, List.mem_singleton] at hx
    exact hx ▸ hlt

/-- The reference profile against its own line. -/
theorem verify_agrees_with_decrypted_reference :
    ofValue "profile" (.record reference.exactFields) = .ok reference ∧ 2 ≤ reference.chain.length ∧
      reference.verify "D3CTF(TECH-EV0LVE,EMBR@C3-PR0GR3SS)" = true ∧
      reference.line false = "D3CTF(TECH-EV0LVE,EMBR@C3-PR0GR3SS)\n" := by
  have hp := ofValue_of_statedBy reference.statedBy_exactFields accepted_reference "profile"
  have hv : reference.verify "D3CTF(TECH-EV0LVE,EMBR@C3-PR0GR3SS)" = true := by decide +kernel
  have hline := (verify_agrees_with_decrypted hp "D3CTF(TECH-EV0LVE,EMBR@C3-PR0GR3SS)").2 (.inl (by decide)) hv
  exact ⟨hp, by decide, hv, hline.trans (by decide +kernel)⟩

end Profile
end GlyphChain
