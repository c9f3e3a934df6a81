import GlyphChain.Cipher.Block
import GlyphChain.Cipher.Reference
/-!
# Narrow — storage seen through its low 40 bits

Cutting a state of the cipher on storage to 40 bits gives a state of the reference cipher, and the cut goes along with
every step: a round cut is the round of the cut (`narrow_advance`, `narrow_retreat`), hence a run cut is the run of the
cut (`narrow_forward`, `narrow_backward`).  So two runs that begin alike in the low 40 bits of both words and of the
sum end alike there, whatever stands above bit 39.
-/
namespace GlyphChain
namespace Cipher

/-- A state cut to the width of the reference cipher. -/
def State.narrow (s : State) : Reference.State := ⟨s.v0.setWidth 40, s.v1.setWidth 40, s.sum.setWidth 40⟩

/-- The two words of a state of the reference cipher. -/
def Reference.State.toBlock (s : Reference.State) : Block := ⟨s.v0.toNat, s.v1.toNat⟩

/-! ## Integers put into storage -/

/-- **A word cut to a width and then to a narrower one is cut to the narrower one.** -/
theorem setWidth_ofInt {v w : Nat} (h : v ≤ w) (x : Int) : (BitVec.ofInt w x).setWidth v = BitVec.ofInt v x := by
  have hv : (0 : Int) < (2 ^ v : Nat) := by exact_mod_cast Nat.two_pow_pos v
  have hw : (0 : Int) < (2 ^ w : Nat) := by exact_mod_cast Nat.two_pow_pos w
  have hdvd : ((2 ^ v : Nat) : Int) ∣ (2 ^ w : Nat) := Int.natCast_dvd_natCast.2 (Nat.pow_dvd_pow 2 h)
  apply BitVec.eq_of_toNat_eq
  rw [BitVec.toNat_setWidth, BitVec.toNat_ofInt, BitVec.toNat_ofInt]
  apply Int.ofNat.inj
  rw [Int.ofNat_eq_natCast, Int.ofNat_eq_natCast, Int.natCast_emod, Int.toNat_of_nonneg (Int.emod_nonneg x (by omega)),
    Int.toNat_of_nonneg (Int.emod_nonneg x (by omega)), Int.emod_emod_of_dvd x hdvd]

theorem toNat_ofInt_low (bits : Nat) (x : Word) : ((BitVec.ofInt bits x).toNat : Word) = Word.low bits x := by
  have hpos : (0 : Int) < (2 ^ bits : Nat) := by exact_mod_cast Nat.two_pow_pos bits
  rw [BitVec.toNat_ofInt, Int.toNat_of_nonneg (Int.emod_nonneg x (by omega))]
  rfl

theorem ofInt_toNat {v : Nat} (x : BitVec v) : BitVec.ofInt v (x.toNat : Int) = x := by
  rw [BitVec.ofInt_natCast, BitVec.ofNat_toNat, BitVec.setWidth_eq]

/-! ## One round

The key words of the two half-rounds are chosen by bits 0, 1, 11 and 12 of the sum, which the cut keeps. -/

/-- **The mix of wide words, cut, is the mix of the cut words**: the right shift sees 40 bits only. -/
theorem setWidth_mix (x sum k : BitVec 64) :
    (mix x sum k).setWidth 40 = Reference.mix (x.setWidth 40) (sum.setWidth 40) (k.setWidth 40) := by
  have hshift : (((x.setWidth 40) >>> 5).setWidth 64).setWidth 40 = (x.setWidth 40) >>> 5 := by
    rw [BitVec.setWidth_setWidth_of_le _ (by omega), BitVec.setWidth_eq]
  unfold mix Reference.mix
  rw [BitVec.setWidth_xor, BitVec.setWidth_add _ _ (by decide), BitVec.setWidth_xor,
    BitVec.setWidth_shiftLeft_of_le (by decide), hshift, BitVec.setWidth_add _ _ (by decide)]

theorem first_setWidth (key : Key) (sum : BitVec 48) : key.first (sum.setWidth 40) = key.first sum := by
  unfold Key.first
  rw [BitVec.toNat_setWidth]
  congr 1
  omega

theorem second_setWidth (key : Key) (sum : BitVec 48) : key.second (sum.setWidth 40) = key.second sum := by
  unfold Key.second
  rw [BitVec.toNat_setWidth]
  congr 1
  omega

theorem setWidth_firstMix (key : Key) (x : BitVec 64) (sum : BitVec 48) :
    (firstMix key x sum).setWidth 40 =
      Reference.mix (x.setWidth 40) (sum.setWidth 40) (BitVec.ofNat 40 (key.first (sum.setWidth 40))) := by
  rw [firstMix, setWidth_mix, BitVec.setWidth_setWidth_of_le _ (by omega), BitVec.setWidth_ofNat_of_le (by omega),
    first_setWidth]

theorem setWidth_secondMix (key : Key) (x : BitVec 64) (sum : BitVec 48) :
    (secondMix key x sum).setWidth 40 =
      Reference.mix (x.setWidth 40) (sum.setWidth 40) (BitVec.ofNat 40 (key.second (sum.setWidth 40))) := by
  rw [secondMix, setWidth_mix, BitVec.setWidth_setWidth_of_le _ (by omega), BitVec.setWidth_ofNat_of_le (by omega),
    second_setWidth]

theorem setWidth_sub {v w : Nat} (x y : BitVec w) (h : v ≤ w) :
    (x - y).setWidth v = x.setWidth v - y.setWidth v := by
  rw [BitVec.sub_eq_add_neg, BitVec.setWidth_add _ _ h, BitVec.setWidth_neg_of_le h, ← BitVec.sub_eq_add_neg]

/-- **A round cut is the round of the cut.** -/
theorem narrow_advance (key : Key) (delta : Word) (s : State) :
    (advance key delta s).narrow = Reference.advance key (BitVec.ofInt 40 delta) s.narrow := by
  simp only [State.narrow, advance, Reference.advance, BitVec.setWidth_add _ _ (show 40 ≤ 64 by omega),
    BitVec.setWidth_add _ _ (show 40 ≤ 48 by omega), setWidth_firstMix, setWidth_secondMix,
    setWidth_ofInt (show 40 ≤ 48 by omega)]

/-- **A round undone and cut is the cut with the round undone.** -/
theorem narrow_retreat (key : Key) (delta : Word) (s : State) :
    (retreat key delta s).narrow = Reference.retreat key (BitVec.ofInt 40 delta) s.narrow := by
  simp only [State.narrow, retreat, Reference.retreat, setWidth_sub _ _ (show 40 ≤ 64 by omega),
    setWidth_sub _ _ (show 40 ≤ 48 by omega), setWidth_firstMix, setWidth_secondMix,
    setWidth_ofInt (show 40 ≤ 48 by omega)]

/-! ## A run of rounds -/

/-- **A run cut is the run of the cut.** -/
theorem narrow_forward (key : Key) (delta : Word) : ∀ (n : Nat) (s : State),
    (forward key delta n s).narrow = Reference.forward key (BitVec.ofInt 40 delta) n s.narrow
  | 0, _ => rfl
  | n + 1, s => by
    rw [forward, Reference.forward, narrow_forward key delta n, narrow_advance]

/-- **A run undone and cut is the cut with the run undone.** -/
theorem narrow_backward (key : Key) (delta : Word) : ∀ (n : Nat) (s : State),
    (backward key delta n s).narrow = Reference.backward key (BitVec.ofInt 40 delta) n s.narrow
  | 0, _ => rfl
  | n + 1, s => by
    rw [backward, Reference.backward, narrow_backward key delta n, narrow_retreat]

theorem sum_forward (key : Key) (delta : Word) : ∀ (n : Nat) (s : State),
    (forward key delta n s).sum = s.sum + BitVec.ofInt 48 (delta * n)
  | 0, s => by simp [forward]
  | n + 1, s => by
    have hsplit : BitVec.ofInt 48 (delta * (n + 1 : Nat)) = BitVec.ofInt 48 delta + BitVec.ofInt 48 (delta * n) := by
      rw [← BitVec.ofInt_add]
      congr 1
      rw [Int.natCast_succ, Int.mul_add, Int.mul_one, Int.add_comm]
    rw [forward, sum_forward key delta n, hsplit, ← BitVec.add_assoc]
    rfl

/-! ## Blocks -/

theorem toBlock_narrow (s : State) : s.narrow.toBlock = s.toBlock := rfl

theorem narrow_ofBlock (b : Block) (sum : BitVec 48) :
    (State.ofBlock b sum).narrow = ⟨BitVec.ofInt 40 b.v0, BitVec.ofInt 40 b.v1, sum.setWidth 40⟩ := by
  simp only [State.narrow, State.ofBlock, setWidth_ofInt (show 40 ≤ 64 by omega)]

/-- **The block of a state, put back beside a sum with the same low 40 bits, is cut like the state.** -/
theorem narrow_ofBlock_toBlock (s : State) (sum : BitVec 48) (h : sum.setWidth 40 = s.sum.setWidth 40) :
    (State.ofBlock s.toBlock sum).narrow = s.narrow := by
  rw [narrow_ofBlock, h]
  simp only [State.toBlock, State.narrow, ofInt_toNat]

end Cipher
end GlyphChain
