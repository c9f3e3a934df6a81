import GlyphChain.Proofs.Cipher.Inverse
/-!
# Refinement — the cipher on storage is the cipher in 40 bits

Enciphering and deciphering give what the reference cipher gives on the residues of their inputs modulo 2^40
(`encipher_eq_reference`, `decipher_eq_reference`), so two inputs with the same residues have the same result.  The
sum of a run may even be disturbed above bit 39 before every half-round: the block at the end stays the same
(`encipherUnder_eq`, `decipherUnder_eq`).
-/
namespace GlyphChain

open Word (blockBits)

def Key.low (bits : Nat) (key : Key) : Key :=
  ⟨key.k0 % Word.span bits, key.k1 % Word.span bits, key.k2 % Word.span bits, key.k3 % Word.span bits⟩

theorem Key.word_low (bits : Nat) (key : Key) (i : Nat) : (key.low bits).word i = key.word i % Word.span bits := by
  unfold Key.word
  split <;> rfl

def Block.ofResidues (r : BitVec 40 × BitVec 40) : Block := ⟨r.1.toNat, r.2.toNat⟩

namespace Cipher

theorem ofNat_word_low (key : Key) (i : Nat) :
    BitVec.ofNat 40 ((key.low blockBits).word i) = BitVec.ofNat 40 (key.word i) := by
  apply BitVec.eq_of_toNat_eq
  rw [Key.word_low, BitVec.toNat_ofNat, BitVec.toNat_ofNat]
  exact Nat.mod_mod _ _

theorem ofInt_eq_of_low {x y : Word} (h : Word.low blockBits x = Word.low blockBits y) :
    BitVec.ofInt 40 x = BitVec.ofInt 40 y := by
  rw [blockBits, ← toNat_ofInt_low, ← toNat_ofInt_low] at h
  exact BitVec.eq_of_toNat_eq (Int.ofNat.inj h)

/-! ## The reference cipher on a key that is cut -/

namespace Reference

theorem advance_low (key : Key) (delta : BitVec 40) (s : State) :
    advance (key.low blockBits) delta s = advance key delta s := by
  simp only [advance, Key.first, Key.second, ofNat_word_low]

theorem retreat_low (key : Key) (delta : BitVec 40) (s : State) :
    retreat (key.low blockBits) delta s = retreat key delta s := by
  simp only [retreat, Key.first, Key.second, ofNat_word_low]

theorem forward_low (key : Key) (delta : BitVec 40) : ∀ (n : Nat) (s : State),
    forward (key.low blockBits) delta n s = forward key delta n s
  | 0, _ => rfl
  | n + 1, s => by
    rw [forward, forward, advance_low, forward_low key delta n]

theorem backward_low (key : Key) (delta : BitVec 40) : ∀ (n : Nat) (s : State),
    backward (key.low blockBits) delta n s = backward key delta n s
  | 0, _ => rfl
  | n + 1, s => by
    rw [backward, backward, retreat_low, backward_low key delta n]

end Reference

/-! ## A run whose sum is disturbed -/

/-- What becomes of the sum before the two half-rounds of the round after which `n` are left: anything that keeps the
low 40 bits. -/
structure Disturbance where
  first : Nat → BitVec 48 → BitVec 48
  second : Nat → BitVec 48 → BitVec 48
  first_low : ∀ n sum, (first n sum).setWidth 40 = sum.setWidth 40
  second_low : ∀ n sum, (second n sum).setWidth 40 = sum.setWidth 40

def advanceUnder (d : Disturbance) (key : Key) (delta : Word) (n : Nat) (s : State) : State :=
  let before := d.first n s.sum
  let v0 := s.v0 + firstMix key s.v1 before
  let sum := d.second n (before + BitVec.ofInt 48 delta)
  ⟨v0, s.v1 + secondMix key v0 sum, sum⟩

def retreatUnder (d : Disturbance) (key : Key) (delta : Word) (n : Nat) (s : State) : State :=
  let after := d.second n s.sum
  let v1 := s.v1 - secondMix key s.v0 after
  let sum := d.first n (after - BitVec.ofInt 48 delta)
  ⟨s.v0 - firstMix key v1 sum, v1, sum⟩

def forwardUnder (d : Disturbance) (key : Key) (delta : Word) : Nat → State → State
  | 0, s => s
  | n + 1, s => forwardUnder d key delta n (advanceUnder d key delta n s)

def backwardUnder (d : Disturbance) (key : Key) (delta : Word) : Nat → State → State
  | 0, s => s
  | n + 1, s => backwardUnder d key delta n (retreatUnder d key delta n s)

section
variable (d : Disturbance) (key : Key) (delta : Word)

example (n : Nat) (s : State) : advanceUnder ⟨fun _ sum => sum, fun _ sum => sum, fun _ _ => rfl, fun _ _ => rfl⟩
    key delta n s = advance key delta s := rfl

theorem narrow_advanceUnder (n : Nat) (s : State) :
    (advanceUnder d key delta n s).narrow = (advance key delta s).narrow := by
  rw [narrow_advance]
  -- once cut to 40 bits a disturbed sum is the sum itself, and both sides are the reference round
  simp only [State.narrow, advanceUnder, Reference.advance, BitVec.setWidth_add _ _ (show 40 ≤ 64 by omega),
    BitVec.setWidth_add _ _ (show 40 ≤ 48 by omega), setWidth_firstMix, setWidth_secondMix,
    setWidth_ofInt (show 40 ≤ 48 by omega), d.first_low, d.second_low]

theorem narrow_retreatUnder (n : Nat) (s : State) :
    (retreatUnder d key delta n s).narrow = (retreat key delta s).narrow := by
  rw [narrow_retreat]
  simp only [State.narrow, retreatUnder, Reference.retreat, setWidth_sub _ _ (show 40 ≤ 64 by omega),
    setWidth_sub _ _ (show 40 ≤ 48 by omega), setWidth_firstMix, setWidth_secondMix,
    setWidth_ofInt (show 40 ≤ 48 by omega), d.first_low, d.second_low]

/-- **A disturbed run ends with the low 40 bits of the run left alone.** -/
theorem narrow_forwardUnder : ∀ (n : Nat) (s : State),
    (forwardUnder d key delta n s).narrow = (forward key delta n s).narrow
  | 0, _ => rfl
  | n + 1, s => by
    rw [forwardUnder, forward, narrow_forwardUnder n]
    exact narrow_forward_congr key delta n (narrow_advanceUnder d key delta n s)

theorem narrow_backwardUnder : ∀ (n : Nat) (s : State),
    (backwardUnder d key delta n s).narrow = (backward key delta n s).narrow
  | 0, _ => rfl
  | n + 1, s => by
    rw [backwardUnder, backward, narrow_backwardUnder n]
    exact narrow_backward_congr key delta n (narrow_retreatUnder d key delta n s)

end

namespace Params

def encipherUnder (d : Disturbance) (p : Params) (b : Block) : Block :=
  (forwardUnder d p.key p.delta p.rounds (.ofBlock b 0)).toBlock

def decipherUnder (d : Disturbance) (p : Params) (b : Block) : Block :=
  (backwardUnder d p.key p.delta p.rounds (.ofBlock b (lastSum p))).toBlock

theorem encipherUnder_eq (d : Disturbance) (p : Params) (b : Block) : p.encipherUnder d b = p.encipher b :=
  toBlock_eq_of_narrow (narrow_forwardUnder d p.key p.delta p.rounds _)

theorem decipherUnder_eq (d : Disturbance) (p : Params) (b : Block) : p.decipherUnder d b = p.decipher b :=
  toBlock_eq_of_narrow (narrow_backwardUnder d p.key p.delta p.rounds _)

theorem setWidth_lastSum_mul (p : Params) :
    (lastSum p).setWidth 40 = BitVec.ofNat 40 p.rounds * BitVec.ofInt 40 p.delta := by
  rw [setWidth_lastSum, BitVec.ofInt_mul, BitVec.ofInt_natCast, BitVec.mul_comm]

/-- **Enciphering is the reference cipher on residues.** -/
theorem encipher_eq_reference (p : Params) (b : Block) :
    p.encipher b = .ofResidues (Reference.encipher (p.key.low blockBits) p.rounds (BitVec.ofInt 40 p.delta)
      (BitVec.ofInt 40 b.v0) (BitVec.ofInt 40 b.v1)) := by
  rw [encipher, ← toBlock_narrow, narrow_forward, narrow_ofBlock, Reference.encipher, Reference.forward_low]
  rfl

theorem decipher_eq_reference (p : Params) (b : Block) :
    p.decipher b = .ofResidues (Reference.decipher (p.key.low blockBits) p.rounds (BitVec.ofInt 40 p.delta)
      (BitVec.ofInt 40 b.v0) (BitVec.ofInt 40 b.v1)) := by
  rw [decipher, ← toBlock_narrow, narrow_backward, narrow_ofBlock, setWidth_lastSum_mul, Reference.decipher,
    Reference.backward_low]
  rfl

/-- What two ciphers have in common if they differ above bit 39 only. -/
structure SameLow (p q : Params) : Prop where
  rounds : p.rounds = q.rounds
  key : p.key.low blockBits = q.key.low blockBits
  delta : Word.low blockBits p.delta = Word.low blockBits q.delta

theorem SameLow.encipher_eq {p q : Params} (h : p.SameLow q) {b c : Block} (hb : b.low = c.low) :
    p.encipher b = q.encipher c := by
  rw [← p.encipher_low, hb, encipher_low, encipher_eq_reference, encipher_eq_reference, h.rounds, h.key,
    ofInt_eq_of_low h.delta]

theorem SameLow.decipher_eq {p q : Params} (h : p.SameLow q) {b c : Block} (hb : b.low = c.low) :
    p.decipher b = q.decipher c := by
  rw [← p.decipher_low, hb, decipher_low, decipher_eq_reference, decipher_eq_reference, h.rounds, h.key,
    ofInt_eq_of_low h.delta]

end Params

namespace Settings

end Settings
end Cipher
end GlyphChain
