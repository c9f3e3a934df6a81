import GlyphChain.Proofs.Cipher.ChainInverse
import GlyphChain.Proofs.Cipher.Refinement
import GlyphChain.Proofs.Profile.Accepted
/-!
# HighBits — what stands above bit 39 of a profile does not count

Two ciphers that differ above bit 39 only encipher and decipher every block alike, hence encrypt and decrypt every chain
alike (`SameLow.encryptChain_eq`, `SameLow.decryptChain_eq`).  Cutting the words of a chain goes along with decrypting
it, so chains that differ above bit 39 only decrypt to words that do, and to the same words once every word has passed
through a block.
-/
namespace GlyphChain

open Word (low blockBits)

theorem Key.low_eq_of_words {key key' : Key}
    (h : key.words.map (Word.low blockBits) = key'.words.map (Word.low blockBits)) :
    key.low blockBits = key'.low blockBits := by
  have hword : ∀ {a b : Nat}, Word.low blockBits a = Word.low blockBits b →
      a % Word.span blockBits = b % Word.span blockBits := by
    intro a b hab
    unfold Word.low at hab
    rw [← Int.natCast_emod, ← Int.natCast_emod] at hab
    exact Int.ofNat.inj hab
  simp only [Key.words, List.map_cons, List.map_nil, List.cons.injEq, and_true] at h
  obtain ⟨h0, h1, h2, h3⟩ := h
  rw [Key.low, Key.low, hword h0, hword h1, hword h2, hword h3]

namespace Cipher.Params

variable {p q : Params}

/-! ## Chains under two ciphers -/

theorem SameLow.encryptFrom_eq (h : p.SameLow q) : ∀ (ws : List Word) (carry : Word),
    p.encryptFrom carry ws = q.encryptFrom carry ws
  | [], _ => rfl
  | w :: rest, carry => by
    have hb : p.encipher ⟨carry, w⟩ = q.encipher ⟨carry, w⟩ := h.encipher_eq rfl
    rw [encryptFrom, encryptFrom, hb, h.encryptFrom_eq rest]

theorem SameLow.encryptChain_eq (h : p.SameLow q) (ws : List Word) : p.encryptChain ws = q.encryptChain ws := by
  cases ws with
  | nil => rfl
  | cons w rest => exact h.encryptFrom_eq rest w

theorem SameLow.decryptChain_eq (h : p.SameLow q) : ∀ ws : List Word, p.decryptChain ws = q.decryptChain ws
  | [] => rfl
  | w :: rest => by
    have ih := h.decryptChain_eq rest
    cases hd : q.decryptChain rest with
    | nil => rw [decryptChain, decryptChain, ih, hd]
    | cons v done =>
      have hb : p.decipher ⟨w, v⟩ = q.decipher ⟨w, v⟩ := h.decipher_eq rfl
      rw [p.decryptChain_cons w (ih.trans hd), q.decryptChain_cons w hd, hb]

/-- **Chains that differ above bit 39 only decrypt to words that do.** -/
theorem SameLow.map_low_decryptChain (h : p.SameLow q) {ws vs : List Word}
    (hws : ws.map (low blockBits) = vs.map (low blockBits)) :
    (p.decryptChain ws).map (low blockBits) = (q.decryptChain vs).map (low blockBits) := by
  rw [← p.decryptChain_map_low, ← q.decryptChain_map_low, hws, h.decryptChain_eq]

end Cipher.Params

namespace Profile

/-- What two profiles have in common if their words differ above bit 39 only. -/
structure SameLow (p q : Profile) : Prop where
  rounds : p.rounds = q.rounds
  glyphs : p.glyphs = q.glyphs
  key : p.key.words.map (low blockBits) = q.key.words.map (low blockBits)
  delta : low blockBits p.delta = low blockBits q.delta
  chain : p.chain.map (low blockBits) = q.chain.map (low blockBits)

namespace SameLow

variable {p q : Profile}

theorem params (h : p.SameLow q) : p.params.SameLow q.params := ⟨h.rounds, Key.low_eq_of_words h.key, h.delta⟩

theorem length_chain (h : p.SameLow q) : p.chain.length = q.chain.length := by
  have := congrArg List.length h.chain
  rwa [List.length_map, List.length_map] at this

theorem encrypt_eq (h : p.SameLow q) (text : Text) : p.encrypt text = q.encrypt text := by
  rw [encrypt, encrypt, h.glyphs, h.params.encryptChain_eq]

theorem verify_eq (h : p.SameLow q) (text : Text) : p.verify text = q.verify text := by
  rw [verify, verify, h.encrypt_eq, h.chain]

theorem map_low_decrypted (h : p.SameLow q) :
    p.decrypted.map (low blockBits) = q.decrypted.map (low blockBits) :=
  h.params.map_low_decryptChain h.chain

theorem decrypted_eq (h : p.SameLow q) (hlen : 2 ≤ p.chain.length) : p.decrypted = q.decrypted := by
  have hp := Word.map_low_eq_self (p.params.fits_decryptChain_of_two hlen)
  have hq := Word.map_low_eq_self (q.params.fits_decryptChain_of_two (h.length_chain ▸ hlen))
  calc p.decrypted
      = p.decrypted.map (low blockBits) := hp.symm
    _ = q.decrypted.map (low blockBits) := h.map_low_decrypted
    _ = q.decrypted := hq

/-- **Bits above bit 39 of a profile do not matter**: of two profiles with the same rounds and table, whose key words,
deltas and chain words agree modulo 2^40, each encrypts any text to the same words and verifies any text alike; their
decrypted words agree modulo 2^40, and where the chain has two words or more they are the same words and print the same
line, with capitals lowered or not. -/
theorem high_bits_irrelevant (h : p.SameLow q) :
    (∀ text : Text, p.encrypt text = q.encrypt text ∧ p.verify text = q.verify text) ∧
    p.decrypted.map (low blockBits) = q.decrypted.map (low blockBits) ∧
    (2 ≤ p.chain.length → p.decrypted = q.decrypted ∧ ∀ lower, p.line lower = q.line lower) := by
  refine ⟨fun text => ⟨h.encrypt_eq text, h.verify_eq text⟩, h.map_low_decrypted, fun hlen => ?_⟩
  have hwords := h.decrypted_eq hlen
  refine ⟨hwords, fun lower => ?_⟩
  rw [line, line, hwords, h.glyphs]

/-- The reference profile, and a profile that was read with bits set above bit 39 in its key, delta and chain. -/
theorem high_bits_irrelevant_reference :
    let p : Profile := ⟨⟨0x10c1d00050f, 0xffffff0001000137, 0x000400022f, 0x8000000065000027⟩,
      [0x1058b0e5eda, 0xf48afab6bb, 0x80f47bfb8cbf, 0xffffff5fb0c2b766, 0x8a6528f759, 0x7acea379b5, 0x300c0850d08ce],
      32, 0xffff009e38538a49, Glyph.Table.standard⟩
    ofValue "p" (.record p.exactFields) = .ok p ∧ p.SameLow reference ∧ p.chain ≠ reference.chain ∧
      p.decrypted = reference.decrypted ∧ p.line false = reference.line false ∧
      p.verify "D3CTF(TECH-EV0LVE,EMBR@C3-PR0GR3SS)" = reference.verify "D3CTF(TECH-EV0LVE,EMBR@C3-PR0GR3SS)" := by
  intro p
  have hp : ofValue "p" (.record p.exactFields) = .ok p :=
    ofValue_of_statedBy p.statedBy_exactFields
      ⟨by decide, by decide, by decide, by decide, by decide, Glyph.Table.checked_standard⟩ "p"
  have h : p.SameLow reference := ⟨rfl, rfl, by decide, by decide, by decide⟩
  obtain ⟨htexts, -, hchain⟩ := high_bits_irrelevant h
  obtain ⟨hwords, hline⟩ := hchain (by decide)
  exact ⟨hp, h, by decide, hwords, hline false, (htexts _).2⟩

end SameLow
end Profile
end GlyphChain
