import GlyphChain.Cipher.InPlace
import GlyphChain.Proofs.Cipher.ChainInverse
/-!
# Loop — chains worked in place are chains worked at once

Settings that pass the checks of a chain pass those of every block (`forBlock_of_forChain`), so a loop that has begun runs
to its end, and what it leaves is the chain encrypted or decrypted at once (`encryptLoop_eq`, `decryptLoop_eq`).
-/
namespace GlyphChain
namespace Cipher
namespace Settings

variable {s : Settings} {p : Params}

theorem forBlock_of_forChain (h : s.forChain = .ok p) : s.forBlock = .ok p := by
  unfold forChain at h
  obtain ⟨key, hkey, h⟩ := bind_eq_ok h
  obtain ⟨rounds, hrounds, h⟩ := bind_eq_ok h
  rw [forBlock, hrounds, ok_bind, hkey, ok_bind]
  exact h

/-- **The encrypting loop from a block on** leaves the words before the block, and does not fail. -/
theorem foldlM_encipher (h : s.forBlock = .ok p) : ∀ (rest pre : List Word) (carry : Word),
    (List.range' pre.length rest.length).foldlM (fun out i => atBlock s.encipher i out) (pre ++ carry :: rest) =
      .ok (pre ++ p.encryptFrom carry rest)
  | [], _, _ => rfl
  | w :: rest, pre, carry => by
    have hstep : atBlock s.encipher pre.length (pre ++ carry :: w :: rest) =
        .ok (pre ++ (p.encipher ⟨carry, w⟩).v0 :: (p.encipher ⟨carry, w⟩).v1 :: rest) := by
      rw [atBlock_append, encipher_of_forBlock h]
      rfl
    -- the first word of the block is final now and joins those before, the second goes into the next block
    have ih := foldlM_encipher h rest (pre ++ [(p.encipher ⟨carry, w⟩).v0]) (p.encipher ⟨carry, w⟩).v1
    simp only [List.length_append, List.length_singleton, List.append_assoc, List.singleton_append] at ih
    rw [List.length_cons, List.range'_succ, List.foldlM_cons, hstep, ok_bind, ih, Params.encryptFrom]

/-- **The decrypting loop down to a block** leaves the words before the block, and does not fail. -/
theorem foldlM_decipher (h : s.forBlock = .ok p) : ∀ (rest pre : List Word) (w : Word),
    (List.range' pre.length rest.length).reverse.foldlM (fun out i => atBlock s.decipher i out) (pre ++ w :: rest) =
      .ok (pre ++ p.decryptChain (w :: rest))
  | [], _, _ => rfl
  | v :: rest, pre, w => by
    have ih := foldlM_decipher h rest (pre ++ [w]) v
    simp only [List.length_append, List.length_singleton, List.append_assoc, List.singleton_append] at ih
    rw [List.length_cons, List.range'_succ, List.reverse_cons, List.foldlM_append, ih, ok_bind, List.foldlM_cons]
    cases hd : p.decryptChain (v :: rest) with
    | nil =>
      have hlen := p.length_decryptChain (v :: rest)
      rw [hd] at hlen
      cases hlen
    | cons u done =>
      rw [p.decryptChain_cons w hd, atBlock_append, decipher_of_forBlock h]
      rfl

/-- **The encrypting loop is encrypting the chain**, whatever the settings: it fails at the checks before the loop or not
at all.  So does the decrypting loop. -/
theorem encryptLoop_eq (s : Settings) (words : List Word) : s.encryptLoop words = s.encryptChain words := by
  unfold encryptLoop encryptChain
  cases hs : s.forChain with
  | error f => rfl
  | ok p =>
    rw [ok_bind]
    cases words with
    | nil => rfl
    | cons w rest => exact foldlM_encipher (forBlock_of_forChain hs) rest [] w

theorem decryptLoop_eq (s : Settings) (words : List Word) : s.decryptLoop words = s.decryptChain words := by
  unfold decryptLoop decryptChain
  cases hs : s.forChain with
  | error f => rfl
  | ok p =>
    rw [ok_bind]
    cases words with
    | nil => rfl
    | cons w rest => exact foldlM_decipher (forBlock_of_forChain hs) rest [] w

end Settings
end Cipher
end GlyphChain
