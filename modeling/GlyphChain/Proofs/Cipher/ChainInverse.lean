import GlyphChain.Proofs.Cipher.Inverse
import Mathlib.Data.Set.Function
/-!
# ChainInverse — chains decrypted after they were encrypted, and the other way round

Encrypting goes up the chain and decrypting comes down, so on words of 40 bits each block is undone on the very words
it left (`decryptChain_encryptChain`, `encryptChain_decryptChain`).  Cutting all words to 40 bits goes along with both
(`encryptChain_map_low`, `decryptChain_map_low`), and where there is a block at all every word passes through one, so
words over 40 bits come back cut.
-/
namespace GlyphChain

open Word (low blockBits Fits)

namespace Cipher
namespace Params

variable (p : Params)

/-! ## Cutting words goes along with both directions -/

theorem encryptFrom_map_low : ∀ (ws : List Word) (carry : Word),
    p.encryptFrom (low blockBits carry) (ws.map (low blockBits)) = (p.encryptFrom carry ws).map (low blockBits)
  | [], _ => rfl
  | w :: rest, carry => by
    have hb : p.encipher ⟨low blockBits carry, low blockBits w⟩ = p.encipher ⟨carry, w⟩ := p.encipher_low ⟨carry, w⟩
    obtain ⟨hv0, hv1⟩ := p.fits_encipher ⟨carry, w⟩
    simp only [List.map_cons, encryptFrom, hb, hv0.low_eq]
    rw [← encryptFrom_map_low rest, hv1.low_eq]

/-- **Encrypting words cut to 40 bits is encrypting them and cutting the result.** -/
theorem encryptChain_map_low (ws : List Word) :
    p.encryptChain (ws.map (low blockBits)) = (p.encryptChain ws).map (low blockBits) := by
  cases ws with
  | nil => rfl
  | cons w rest => exact encryptFrom_map_low p rest w

theorem decryptChain_cons {rest done : List Word} {v : Word} (w : Word) (h : p.decryptChain rest = v :: done) :
    p.decryptChain (w :: rest) = (p.decipher ⟨w, v⟩).v0 :: (p.decipher ⟨w, v⟩).v1 :: done := by
  rw [decryptChain, h]

/-- **Decrypting words cut to 40 bits is decrypting them and cutting the result.** -/
theorem decryptChain_map_low : ∀ ws : List Word,
    p.decryptChain (ws.map (low blockBits)) = (p.decryptChain ws).map (low blockBits)
  | [] => rfl
  | w :: rest => by
    have ih := decryptChain_map_low rest
    cases hd : p.decryptChain rest with
    | nil =>
      rw [hd] at ih
      rw [List.map_cons, decryptChain, ih, decryptChain, hd]
      rfl
    | cons v done =>
      have hb : p.decipher ⟨low blockBits w, low blockBits v⟩ = p.decipher ⟨w, v⟩ := p.decipher_low ⟨w, v⟩
      obtain ⟨hv0, hv1⟩ := p.fits_decipher ⟨w, v⟩
      rw [hd, List.map_cons] at ih
      rw [List.map_cons, p.decryptChain_cons _ ih, p.decryptChain_cons _ hd, hb, List.map_cons, List.map_cons,
        hv0.low_eq, hv1.low_eq]

theorem fits_encryptChain {ws : List Word} (h : ∀ w ∈ ws, Fits blockBits w) :
    ∀ w ∈ p.encryptChain ws, Fits blockBits w := by
  rw [← Word.map_low_eq_self h, encryptChain_map_low]
  exact Word.fits_map_low _ _

theorem fits_decryptChain {ws : List Word} (h : ∀ w ∈ ws, Fits blockBits w) :
    ∀ w ∈ p.decryptChain ws, Fits blockBits w := by
  rw [← Word.map_low_eq_self h, decryptChain_map_low]
  exact Word.fits_map_low _ _

/-! ## Words of 40 bits -/

theorem decryptChain_encryptFrom : ∀ (ws : List Word) (carry : Word), Fits blockBits carry →
    (∀ w ∈ ws, Fits blockBits w) → p.decryptChain (p.encryptFrom carry ws) = carry :: ws
  | [], _, _, _ => rfl
  | w :: rest, carry, hc, h => by
    obtain ⟨hw, hrest⟩ := List.forall_mem_cons.1 h
    have hback : p.decipher (p.encipher ⟨carry, w⟩) = ⟨carry, w⟩ := by
      rw [decipher_encipher, Block.low, hc.low_eq, hw.low_eq]
    -- the blocks above are undone first, and leave the carried word as this block made it
    have ih := decryptChain_encryptFrom rest (p.encipher ⟨carry, w⟩).v1 (p.fits_encipher _).2 hrest
    rw [encryptFrom, p.decryptChain_cons _ ih, hback]

/-- **On words of 40 bits, decrypting undoes encrypting.** -/
theorem decryptChain_encryptChain {ws : List Word} (h : ∀ w ∈ ws, Fits blockBits w) :
    p.decryptChain (p.encryptChain ws) = ws := by
  cases ws with
  | nil => rfl
  | cons w rest =>
    obtain ⟨hw, hrest⟩ := List.forall_mem_cons.1 h
    exact decryptChain_encryptFrom p rest w hw hrest

/-- **On words of 40 bits, encrypting undoes decrypting.** -/
theorem encryptChain_decryptChain : ∀ {ws : List Word}, (∀ w ∈ ws, Fits blockBits w) →
    p.encryptChain (p.decryptChain ws) = ws
  | [], _ => rfl
  | w :: rest, h => by
    obtain ⟨hw, hrest⟩ := List.forall_mem_cons.1 h
    have ih := encryptChain_decryptChain hrest
    cases hd : p.decryptChain rest with
    | nil =>
      rw [hd] at ih
      rw [decryptChain, hd, ← ih]
      rfl
    | cons v done =>
      have hv : Fits blockBits v := p.fits_decryptChain hrest v (by rw [hd]; exact List.mem_cons_self)
      have hback : p.encipher (p.decipher ⟨w, v⟩) = ⟨w, v⟩ := by
        rw [encipher_decipher, Block.low, hw.low_eq, hv.low_eq]
      rw [hd] at ih
      rw [p.decryptChain_cons w hd, encryptChain, encryptFrom, hback]
      exact congrArg (w :: ·) ih

/-! ## Words of any size -/

theorem fits_encryptFrom : ∀ (ws : List Word) (carry : Word), Fits blockBits carry →
    ∀ x ∈ p.encryptFrom carry ws, Fits blockBits x
  | [], carry, hc, x, hx => by
    rw [encryptFrom, List.mem_singleton] at hx
    exact hx ▸ hc
  | w :: rest, carry, _, x, hx => by
    rw [encryptFrom, List.mem_cons] at hx
    rcases hx with rfl | hx
    · exact (p.fits_encipher ⟨carry, w⟩).1
    · exact fits_encryptFrom rest _ (p.fits_encipher ⟨carry, w⟩).2 x hx

/-- **A chain with a block in it encrypts to words of 40 bits**, whatever its words were. -/
theorem fits_encryptChain_of_two {ws : List Word} (h : 2 ≤ ws.length) : ∀ x ∈ p.encryptChain ws, Fits blockBits x := by
  match ws, h with
  | w :: v :: rest, _ =>
    intro x hx
    rw [encryptChain, encryptFrom, List.mem_cons] at hx
    rcases hx with rfl | hx
    · exact (p.fits_encipher ⟨w, v⟩).1
    · exact p.fits_encryptFrom rest _ (p.fits_encipher ⟨w, v⟩).2 x hx

theorem fits_tail_decryptChain : ∀ (ws : List Word), ∀ x ∈ (p.decryptChain ws).tail, Fits blockBits x
  | [], x, hx => by cases hx
  | w :: rest, x, hx => by
    cases hd : p.decryptChain rest with
    | nil =>
      rw [decryptChain, hd] at hx
      cases hx
    | cons v done =>
      rw [p.decryptChain_cons w hd, List.tail_cons, List.mem_cons] at hx
      rcases hx with rfl | hx
      · exact (p.fits_decipher ⟨w, v⟩).2
      · exact fits_tail_decryptChain rest x (by rw [hd]; exact hx)

/-- **A chain with a block in it decrypts to words of 40 bits**, whatever its words were. -/
theorem fits_decryptChain_of_two {ws : List Word} (h : 2 ≤ ws.length) : ∀ x ∈ p.decryptChain ws, Fits blockBits x := by
  match ws, h with
  | w :: v :: rest, _ =>
    have htail := p.fits_tail_decryptChain (w :: v :: rest)
    cases hd : p.decryptChain (v :: rest) with
    | nil =>
      have hlen := p.length_decryptChain (v :: rest)
      rw [hd] at hlen
      cases hlen
    | cons u done =>
      rw [p.decryptChain_cons w hd] at htail ⊢
      exact List.forall_mem_cons.2 ⟨(p.fits_decipher ⟨w, u⟩).1, htail⟩

end Params

/-- What is left of a chain once its blocks have gone over it and back: every word cut to 40 bits, but a word that
stands alone as it was. -/
def cutByBlocks (ws : List Word) : List Word := if 2 ≤ ws.length then ws.map (low blockBits) else ws

namespace Params

variable (p : Params)

theorem eq_self_of_short {ws : List Word} (h : ¬ 2 ≤ ws.length) :
    p.encryptChain ws = ws ∧ p.decryptChain ws = ws := by
  match ws, h with
  | [], _ => exact ⟨rfl, rfl⟩
  | [_], _ => exact ⟨rfl, rfl⟩
  | _ :: _ :: _, h => exact absurd (by simp) h

/-- **Decrypting an encrypted chain cuts its words to 40 bits**, where there is a block. -/
theorem decryptChain_encryptChain_any (ws : List Word) : p.decryptChain (p.encryptChain ws) = cutByBlocks ws := by
  unfold cutByBlocks
  split
  · next h =>
    rw [← Word.map_low_eq_self (p.fits_encryptChain_of_two h), ← encryptChain_map_low]
    exact p.decryptChain_encryptChain (Word.fits_map_low _ _)
  · next h => rw [(p.eq_self_of_short h).1, (p.eq_self_of_short h).2]

/-- **Encrypting a decrypted chain cuts its words to 40 bits**, where there is a block. -/
theorem encryptChain_decryptChain_any (ws : List Word) : p.encryptChain (p.decryptChain ws) = cutByBlocks ws := by
  unfold cutByBlocks
  split
  · next h =>
    rw [← Word.map_low_eq_self (p.fits_decryptChain_of_two h), ← decryptChain_map_low]
    exact p.encryptChain_decryptChain (Word.fits_map_low _ _)
  · next h => rw [(p.eq_self_of_short h).2, (p.eq_self_of_short h).1]

end Params

/-! ## Chains of one length -/

/-- The chains of `n` words of 40 bits. -/
def chains (n : Nat) : Set (List Word) := {ws | ws.length = n ∧ ∀ w ∈ ws, Fits blockBits w}

namespace Params

variable (p : Params)

theorem encryptChain_mapsTo (n : Nat) : Set.MapsTo p.encryptChain (chains n) (chains n) :=
  fun ws h => ⟨(p.length_encryptChain ws).trans h.1, p.fits_encryptChain h.2⟩

theorem decryptChain_mapsTo (n : Nat) : Set.MapsTo p.decryptChain (chains n) (chains n) :=
  fun ws h => ⟨(p.length_decryptChain ws).trans h.1, p.fits_decryptChain h.2⟩

theorem chain_invOn (n : Nat) : Set.InvOn p.decryptChain p.encryptChain (chains n) (chains n) :=
  ⟨fun _ h => p.decryptChain_encryptChain h.2, fun _ h => p.encryptChain_decryptChain h.2⟩

theorem encryptChain_bijOn (n : Nat) : Set.BijOn p.encryptChain (chains n) (chains n) :=
  (p.chain_invOn n).bijOn (p.encryptChain_mapsTo n) (p.decryptChain_mapsTo n)

theorem decryptChain_bijOn (n : Nat) : Set.BijOn p.decryptChain (chains n) (chains n) :=
  (p.chain_invOn n).symm.bijOn (p.decryptChain_mapsTo n) (p.encryptChain_mapsTo n)

end Params

namespace Settings

theorem bijOn_ok {f : List Word → Except Fault (List Word)} {g : List Word → List Word} {s t : Set (List Word)}
    (hf : ∀ ws, f ws = .ok (g ws)) (hg : Set.BijOn g s t) : Set.BijOn f s (Except.ok '' t) := by
  have hok : Set.InjOn (Except.ok : List Word → Except Fault (List Word)) t := fun _ _ _ _ h => Except.ok.inj h
  rw [show f = Except.ok ∘ g from funext hf]
  exact hok.bijOn_image.comp hg

/-- **Encrypting and decrypting a chain undo each other, both ways round and at every length**: with any four natural
numbers as the key, any safe count of rounds and any integer as delta, neither fails; one after the other cuts every
word of a chain of two or more to 40 bits and leaves a shorter chain as it was; and each is a bijection of the chains
of `n` words of 40 bits, for every `n`. -/
theorem encryptChain_decryptChain_cancel (p : Params) (hr : p.rounds ≤ Number.maxSafe) :
    (∀ ws, ((ofParams p).encryptChain ws).bind (ofParams p).decryptChain = .ok (cutByBlocks ws)) ∧
    (∀ ws, ((ofParams p).decryptChain ws).bind (ofParams p).encryptChain = .ok (cutByBlocks ws)) ∧
    (∀ n, Set.BijOn (ofParams p).encryptChain (chains n) (Except.ok '' chains n)) ∧
    (∀ n, Set.BijOn (ofParams p).decryptChain (chains n) (Except.ok '' chains n)) := by
  refine ⟨fun ws => ?_, fun ws => ?_, fun n => ?_, fun n => ?_⟩
  · rw [encryptChain_ofParams hr, Except.bind, decryptChain_ofParams hr, Params.decryptChain_encryptChain_any]
  · rw [decryptChain_ofParams hr, Except.bind, encryptChain_ofParams hr, Params.encryptChain_decryptChain_any]
  · exact bijOn_ok (encryptChain_ofParams hr) (p.encryptChain_bijOn n)
  · exact bijOn_ok (decryptChain_ofParams hr) (p.decryptChain_bijOn n)

/-- Negative words and words over 40 and 64 bits in a chain of three, and a negative word alone. -/
theorem encryptChain_decryptChain_cancel_wide :
    let s := ofParams ⟨⟨0, 1, 0x123456789abcdef0123, 7⟩, 16, -0x9e38538a49⟩
    16 ≤ Number.maxSafe ∧
      (s.encryptChain [-5, 0x1ffffffffffffffffff, 3]).bind s.decryptChain = .ok [0xfffffffffb, 0xffffffffff, 3] ∧
      (s.decryptChain [-5]).bind s.encryptChain = .ok [-5] ∧
      Set.BijOn s.encryptChain (chains 7) (Except.ok '' chains 7) ∧
      Set.BijOn s.decryptChain (chains 7) (Except.ok '' chains 7) := by
  obtain ⟨hed, hde, he, hd⟩ := encryptChain_decryptChain_cancel
    ⟨⟨0, 1, 0x123456789abcdef0123, 7⟩, 16, -0x9e38538a49⟩ (by decide)
  exact ⟨by decide, hed [-5, 0x1ffffffffffffffffff, 3], hde [-5], he 7, hd 7⟩

end Settings
end Cipher
end GlyphChain
