import GlyphChain.Proofs.Cipher.ChainInverse
import Mathlib.Data.List.DropRight
/-!
# Locality — which words of a chain a result depends on

Encrypting goes up the chain, and a word is final once the block that begins with it is done; so the first `k` words of
a result are settled by the first `k + 1` words of the chain (`take_encryptChain`).  Decrypting comes down, and a word
is final once the block that ends with it is done; so the last `m` words of a result are settled by the last `m + 1`
(`rtake_decryptChain`).  How long the chain is, and what else is in it, does not matter.
-/
namespace GlyphChain
namespace Cipher

theorem rtake_cons_of_le {w : Word} {ws : List Word} {n : Nat} (h : n ≤ ws.length) :
    (w :: ws).rtake n = ws.rtake n := by
  have hlen : (w :: ws).length - n = ws.length - n + 1 := by
    rw [List.length_cons]
    omega
  rw [List.rtake, hlen, List.drop_succ_cons, List.rtake]

theorem rtake_eq_self {ws : List Word} {n : Nat} (h : ws.length ≤ n) : ws.rtake n = ws := by
  rw [List.rtake, Nat.sub_eq_zero_of_le h, List.drop_zero]

namespace Params

variable (p : Params)

/-! ## From the first block on -/

theorem take_encryptFrom : ∀ (ws : List Word) (carry : Word) (k : Nat),
    (p.encryptFrom carry ws).take k = (p.encryptFrom carry (ws.take k)).take k
  | _, _, 0 => by simp
  | [], _, _ + 1 => rfl
  | w :: rest, carry, k + 1 => by
    -- the block of `carry` and `w` reads nothing past `w`, and hands its second word on
    have ih := take_encryptFrom rest (p.encipher ⟨carry, w⟩).v1 k
    simp only [List.take_succ_cons, encryptFrom, ih]

/-- **The first `k` words of an encrypted chain depend on the first `k + 1` words only.** -/
theorem take_encryptChain (ws : List Word) (k : Nat) :
    (p.encryptChain ws).take k = (p.encryptChain (ws.take (k + 1))).take k := by
  cases ws with
  | nil => rfl
  | cons w rest => exact p.take_encryptFrom rest w k

/-! ## From the last block down -/

theorem rtake_decryptChain_cons (w : Word) {rest : List Word} {m : Nat} (h : m + 1 ≤ rest.length) :
    (p.decryptChain (w :: rest)).rtake m = (p.decryptChain rest).rtake m := by
  have hlen := p.length_decryptChain rest
  -- the block of `w` and the word after it changes the first two words of the result only
  cases hd : p.decryptChain rest with
  | nil =>
    rw [hd, List.length_nil] at hlen
    omega
  | cons v done =>
    rw [hd, List.length_cons] at hlen
    have hm : m ≤ done.length := by omega
    have hm' : m ≤ ((p.decipher ⟨w, v⟩).v1 :: done).length := Nat.le_succ_of_le hm
    rw [p.decryptChain_cons w hd, rtake_cons_of_le hm', rtake_cons_of_le hm, rtake_cons_of_le hm]

/-- **The last `m` words of a decrypted chain depend on the last `m + 1` words only.** -/
theorem rtake_decryptChain (m : Nat) : ∀ ws : List Word,
    (p.decryptChain ws).rtake m = (p.decryptChain (ws.rtake (m + 1))).rtake m
  | [] => by simp [decryptChain]
  | w :: rest => by
    by_cases h : m + 1 ≤ rest.length
    · rw [p.rtake_decryptChain_cons w h, rtake_decryptChain m rest, rtake_cons_of_le h]
    · have hshort : (w :: rest).length ≤ m + 1 := by
        rw [List.length_cons]
        omega
      rw [rtake_eq_self hshort]

end Params

namespace Settings

/-- **A result depends on the words near its own end of the chain only**: with any four natural numbers as the key, any
safe count of rounds and any integer as delta, two chains of any lengths with the same first `k + 1` words encrypt to
chains with the same first `k` words, and two chains with the same last `m + 1` words decrypt to chains with the same
last `m` words. -/
theorem chain_results_local (p : Params) (hr : p.rounds ≤ Number.maxSafe) (ws vs : List Word) :
    (∀ k, ws.take (k + 1) = vs.take (k + 1) → ∃ out out', (ofParams p).encryptChain ws = .ok out ∧
      (ofParams p).encryptChain vs = .ok out' ∧ out.take k = out'.take k) ∧
    (∀ m, ws.rtake (m + 1) = vs.rtake (m + 1) → ∃ out out', (ofParams p).decryptChain ws = .ok out ∧
      (ofParams p).decryptChain vs = .ok out' ∧ out.rtake m = out'.rtake m) := by
  constructor
  · intro k h
    refine ⟨_, _, encryptChain_ofParams hr ws, encryptChain_ofParams hr vs, ?_⟩
    rw [p.take_encryptChain ws, p.take_encryptChain vs, h]
  · intro m h
    refine ⟨_, _, decryptChain_ofParams hr ws, decryptChain_ofParams hr vs, ?_⟩
    rw [p.rtake_decryptChain m ws, p.rtake_decryptChain m vs, h]

/-- Chains of three and of five words with two words in common, at their beginnings and at their ends; some of the words
are negative or over 64 bits. -/
theorem chain_results_local_wide :
    let s := ofParams ⟨⟨0, 1, 0x123456789abcdef0123, 7⟩, 16, -0x9e38538a49⟩
    16 ≤ Number.maxSafe ∧
      (∃ out out', s.encryptChain [-5, 0x1ffffffffffffffffff, 3] = .ok out ∧
        s.encryptChain [-5, 0x1ffffffffffffffffff, 4, 5, -6] = .ok out' ∧ out.take 1 = out'.take 1) ∧
      ∃ out out', s.decryptChain [3, -5, 0x1ffffffffffffffffff] = .ok out ∧
        s.decryptChain [4, 5, -6, -5, 0x1ffffffffffffffffff] = .ok out' ∧ out.rtake 1 = out'.rtake 1 := by
  intro s
  have hr : 16 ≤ Number.maxSafe := by decide
  obtain ⟨hencrypt, -⟩ := chain_results_local ⟨⟨0, 1, 0x123456789abcdef0123, 7⟩, 16, -0x9e38538a49⟩ hr
    [-5, 0x1ffffffffffffffffff, 3] [-5, 0x1ffffffffffffffffff, 4, 5, -6]
  obtain ⟨-, hdecrypt⟩ := chain_results_local ⟨⟨0, 1, 0x123456789abcdef0123, 7⟩, 16, -0x9e38538a49⟩ hr
    [3, -5, 0x1ffffffffffffffffff] [4, 5, -6, -5, 0x1ffffffffffffffffff]
  exact ⟨hr, hencrypt 1 rfl, hdecrypt 1 rfl⟩

-- one word fewer in common is not enough
example : let p : Params := ⟨⟨0, 1, 2, 3⟩, 1, 5⟩
    (p.encryptChain [1, 2]).take 1 ≠ (p.encryptChain [1, 3]).take 1 ∧
      (p.decryptChain [1, 2]).rtake 1 ≠ (p.decryptChain [3, 2]).rtake 1 := by decide +kernel

end Settings
end Cipher
end GlyphChain
