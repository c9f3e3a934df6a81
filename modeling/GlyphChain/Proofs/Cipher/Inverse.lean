import GlyphChain.Proofs.Cipher.Accepted
import GlyphChain.Proofs.Cipher.Narrow
/-!
# Inverse — a block deciphered after it was enciphered, and the other way round

Deciphering begins where enciphering ended, as far as 40 bits go: the words are the low 40 bits of storage, and the
sum is delta times rounds cut to 40 bits.  On storage a run is undone step by step, and what stands above bit 39 never
comes down, so the two runs meet again at the low 40 bits of the block they began with.
-/
namespace GlyphChain

open Word (low blockBits Fits fits_low)

/-- The low 40 bits of both words. -/
def Block.low (b : Block) : Block := ⟨Word.low blockBits b.v0, Word.low blockBits b.v1⟩

namespace Cipher

/-- **On storage, a run undone is run again to where the undoing began.** -/
theorem forward_backward (key : Key) (delta : Word) : ∀ (n : Nat) (s : State),
    forward key delta n (backward key delta n s) = s
  | 0, _ => rfl
  | n + 1, s => by
    rw [forward_succ, backward, forward_backward key delta n, advance_retreat]

theorem toBlock_ofBlock (b : Block) (sum : BitVec 48) : (State.ofBlock b sum).toBlock = b.low := by
  rw [← toBlock_narrow, narrow_ofBlock]
  simp only [Reference.State.toBlock, toNat_ofInt_low]
  rfl

theorem toBlock_eq_of_narrow {s t : State} (h : s.narrow = t.narrow) : s.toBlock = t.toBlock := by
  rw [← toBlock_narrow, ← toBlock_narrow, h]

/-- **Undoing depends on the low 40 bits only.** -/
theorem narrow_backward_congr {s t : State} (key : Key) (delta : Word) (n : Nat) (h : s.narrow = t.narrow) :
    (backward key delta n s).narrow = (backward key delta n t).narrow := by
  rw [narrow_backward, narrow_backward, h]

/-- **A run depends on the low 40 bits only.** -/
theorem narrow_forward_congr {s t : State} (key : Key) (delta : Word) (n : Nat) (h : s.narrow = t.narrow) :
    (forward key delta n s).narrow = (forward key delta n t).narrow := by
  rw [narrow_forward, narrow_forward, h]

theorem narrow_ofBlock_low (b : Block) (sum : BitVec 48) :
    (State.ofBlock b.low sum).narrow = (State.ofBlock b sum).narrow := by
  have hcut : ∀ x : Word, BitVec.ofInt 40 (low blockBits x) = BitVec.ofInt 40 x := by
    intro x
    rw [blockBits, ← toNat_ofInt_low, ofInt_toNat]
  rw [narrow_ofBlock, narrow_ofBlock, Block.low, hcut, hcut]

theorem low_toBlock (s : State) : s.toBlock.low = s.toBlock := by
  rw [← toBlock_ofBlock s.toBlock s.sum]
  exact toBlock_eq_of_narrow (narrow_ofBlock_toBlock s s.sum rfl)

theorem setWidth_lastSum (p : Params) : (lastSum p).setWidth 40 = BitVec.ofInt 40 (p.delta * p.rounds) := by
  rw [lastSum, BitVec.setWidth_setWidth_of_le _ (by decide), BitVec.setWidth_eq]

/-- **Undoing starts from the sum that a run from zero ends with**, in the low 40 bits. -/
theorem setWidth_sum_forward (p : Params) (s : State) (h : s.sum.setWidth 40 = 0#40) :
    (forward p.key p.delta p.rounds s).sum.setWidth 40 = (lastSum p).setWidth 40 := by
  rw [sum_forward, BitVec.setWidth_add _ _ (by decide), h, BitVec.zero_add, setWidth_ofInt (by decide), setWidth_lastSum]

theorem setWidth_sum_backward (p : Params) (s : State) (h : s.sum.setWidth 40 = (lastSum p).setWidth 40) :
    (backward p.key p.delta p.rounds s).sum.setWidth 40 = 0#40 := by
  -- run the undone state again: its end is `s`, and its sum is the sought one plus delta times rounds
  have hrun := sum_forward p.key p.delta p.rounds (backward p.key p.delta p.rounds s)
  rw [forward_backward] at hrun
  have hcut := congrArg (BitVec.setWidth 40) hrun
  rw [BitVec.setWidth_add _ _ (by decide), h, setWidth_ofInt (by decide), setWidth_lastSum] at hcut
  exact BitVec.self_eq_add_left.1 hcut

namespace Params

variable (p : Params)

@[simp] theorem encipher_low (b : Block) : p.encipher b.low = p.encipher b :=
  toBlock_eq_of_narrow (narrow_forward_congr _ _ _ (narrow_ofBlock_low b 0))

@[simp] theorem decipher_low (b : Block) : p.decipher b.low = p.decipher b :=
  toBlock_eq_of_narrow (narrow_backward_congr _ _ _ (narrow_ofBlock_low b (lastSum p)))

@[simp] theorem low_encipher (b : Block) : (p.encipher b).low = p.encipher b := low_toBlock _

@[simp] theorem low_decipher (b : Block) : (p.decipher b).low = p.decipher b := low_toBlock _

theorem fits_encipher (b : Block) : Fits blockBits (p.encipher b).v0 ∧ Fits blockBits (p.encipher b).v1 := by
  rw [← low_encipher]
  exact ⟨fits_low _ _, fits_low _ _⟩

theorem fits_decipher (b : Block) : Fits blockBits (p.decipher b).v0 ∧ Fits blockBits (p.decipher b).v1 := by
  rw [← low_decipher]
  exact ⟨fits_low _ _, fits_low _ _⟩

/-- **Deciphering an enciphered block gives its low 40 bits back.** -/
theorem decipher_encipher (b : Block) : p.decipher (p.encipher b) = b.low := by
  let s := forward p.key p.delta p.rounds (.ofBlock b 0)
  have hstart : (State.ofBlock s.toBlock (lastSum p)).narrow = s.narrow :=
    narrow_ofBlock_toBlock s _ (setWidth_sum_forward p (.ofBlock b 0) rfl).symm
  have hback : backward p.key p.delta p.rounds s = .ofBlock b 0 := backward_forward ..
  calc p.decipher (p.encipher b)
      = (backward p.key p.delta p.rounds (.ofBlock s.toBlock (lastSum p))).toBlock := rfl
    _ = (backward p.key p.delta p.rounds s).toBlock := toBlock_eq_of_narrow (narrow_backward_congr _ _ _ hstart)
    _ = b.low := by rw [hback, toBlock_ofBlock]

/-- **Enciphering a deciphered block gives its low 40 bits back.** -/
theorem encipher_decipher (b : Block) : p.encipher (p.decipher b) = b.low := by
  let s := backward p.key p.delta p.rounds (.ofBlock b (lastSum p))
  have hstart : (State.ofBlock s.toBlock 0).narrow = s.narrow :=
    narrow_ofBlock_toBlock s _ (setWidth_sum_backward p (.ofBlock b (lastSum p)) rfl).symm
  have hforth : forward p.key p.delta p.rounds s = .ofBlock b (lastSum p) := forward_backward ..
  calc p.encipher (p.decipher b)
      = (forward p.key p.delta p.rounds (.ofBlock s.toBlock 0)).toBlock := rfl
    _ = (forward p.key p.delta p.rounds s).toBlock := toBlock_eq_of_narrow (narrow_forward_congr _ _ _ hstart)
    _ = b.low := by rw [hforth, toBlock_ofBlock]

end Params

namespace Settings

/-- **Enciphering and deciphering undo each other up to 40 bits, both ways round**: with any four natural numbers as the
key, any safe count of rounds and any integer as delta, neither fails, and one after the other leaves the low 40 bits
of any two integers. -/
theorem encipher_decipher_cancel (p : Params) (hr : p.rounds ≤ Number.maxSafe) (b : Block) :
    ((ofParams p).encipher b).bind (ofParams p).decipher = .ok b.low ∧
      ((ofParams p).decipher b).bind (ofParams p).encipher = .ok b.low := by
  constructor
  · rw [encipher_ofParams hr, Except.bind, decipher_ofParams hr, Params.decipher_encipher]
  · rw [decipher_ofParams hr, Except.bind, encipher_ofParams hr, Params.encipher_decipher]

/-- A negative word beside a word over 64 bits, under a key word over 64 bits and a negative delta. -/
theorem encipher_decipher_cancel_wide :
    let s := ofParams ⟨⟨0, 1, 0x123456789abcdef0123, 7⟩, 64, -0x9e38538a49⟩
    64 ≤ Number.maxSafe ∧
      (s.encipher ⟨-5, 0x1ffffffffffffffffff⟩).bind s.decipher = .ok ⟨0xfffffffffb, 0xffffffffff⟩ ∧
      (s.decipher ⟨-5, 0x1ffffffffffffffffff⟩).bind s.encipher = .ok ⟨0xfffffffffb, 0xffffffffff⟩ :=
  ⟨by decide, encipher_decipher_cancel ⟨⟨0, 1, 0x123456789abcdef0123, 7⟩, 64, -0x9e38538a49⟩ (by decide)
    ⟨-5, 0x1ffffffffffffffffff⟩⟩

end Settings
end Cipher
end GlyphChain
