import GlyphChain.Proofs.Cipher.Inverse
/-!
# StartingSum — the sum that undoing starts from may be cut to 40 bits

A run from a zero sum ends with delta times rounds in 48 bits, and undoing starts from its low 40.  The two sums part
above bit 39 only, and both runs subtract the same deltas, so they agree below bit 40 before every step; a step chooses
its key words there.  Hence a run back from either sum gives the same block (`decipherFrom_eq`), and the key words it
chooses are those of the run forward, last round first (`undoneWords_eq_reverse`).
-/
namespace GlyphChain
namespace Cipher

/-! ## The key words of a run

`addedWords` lists the key words that a run of rounds chooses, for each round that of its first half and that of its
second, and `undoneWords` those that undoing chooses, in the same form.  `forwardWith` and `backwardWith` run with words
that are given, and with the words that a run chooses they are that run. -/

def addedWords (key : Key) (delta : Word) : Nat → State → List (Nat × Nat)
  | 0, _ => []
  | n + 1, s =>
    (key.first s.sum, key.second (s.sum + BitVec.ofInt 48 delta)) :: addedWords key delta n (advance key delta s)

def undoneWords (key : Key) (delta : Word) : Nat → State → List (Nat × Nat)
  | 0, _ => []
  | n + 1, s =>
    (key.first (s.sum - BitVec.ofInt 48 delta), key.second s.sum) :: undoneWords key delta n (retreat key delta s)

def forwardWith (delta : Word) : List (Nat × Nat) → State → State
  | [], s => s
  | (k, l) :: rest, s =>
    let v0 := s.v0 + mix s.v1 (s.sum.setWidth 64) (BitVec.ofNat 64 k)
    let sum := s.sum + BitVec.ofInt 48 delta
    forwardWith delta rest ⟨v0, s.v1 + mix v0 (sum.setWidth 64) (BitVec.ofNat 64 l), sum⟩

def backwardWith (delta : Word) : List (Nat × Nat) → State → State
  | [], s => s
  | (k, l) :: rest, s =>
    let v1 := s.v1 - mix s.v0 (s.sum.setWidth 64) (BitVec.ofNat 64 l)
    let sum := s.sum - BitVec.ofInt 48 delta
    backwardWith delta rest ⟨s.v0 - mix v1 (sum.setWidth 64) (BitVec.ofNat 64 k), v1, sum⟩

section
variable (key : Key) (delta : Word)

theorem forwardWith_addedWords : ∀ (n : Nat) (s : State),
    forwardWith delta (addedWords key delta n s) s = forward key delta n s
  | 0, _ => rfl
  | n + 1, s => forwardWith_addedWords n (advance key delta s)

theorem backwardWith_undoneWords : ∀ (n : Nat) (s : State),
    backwardWith delta (undoneWords key delta n s) s = backward key delta n s
  | 0, _ => rfl
  | n + 1, s => backwardWith_undoneWords n (retreat key delta s)

theorem addedWords_succ : ∀ (n : Nat) (s : State), addedWords key delta (n + 1) s = addedWords key delta n s ++
    [(key.first (forward key delta n s).sum, key.second ((forward key delta n s).sum + BitVec.ofInt 48 delta))]
  | 0, _ => rfl
  | n + 1, s => by
    have ih := addedWords_succ n (advance key delta s)
    rw [addedWords, ih]
    rfl

/-- **Undoing chooses the key words of the run, last round first**, if it starts from the low 40 bits of the sum that the
run ends with. -/
theorem undoneWords_eq_reverse : ∀ (n : Nat) (s t : State),
    s.sum.setWidth 40 = (forward key delta n t).sum.setWidth 40 →
      undoneWords key delta n s = (addedWords key delta n t).reverse
  | 0, _, _, _ => rfl
  | n + 1, s, t, h => by
    -- the run's last round added one delta, and the first step back takes it off again
    have hlast : (forward key delta (n + 1) t).sum = (forward key delta n t).sum + BitVec.ofInt 48 delta := by
      rw [forward_succ]
      rfl
    rw [hlast] at h
    have hbefore : (s.sum - BitVec.ofInt 48 delta).setWidth 40 = (forward key delta n t).sum.setWidth 40 := by
      rw [setWidth_sub _ _ (by decide), h, ← setWidth_sub _ _ (by decide), BitVec.add_sub_cancel]
    have hfirst : key.first (s.sum - BitVec.ofInt 48 delta) = key.first (forward key delta n t).sum := by
      rw [← first_setWidth, hbefore, first_setWidth]
    have hsecond : key.second s.sum = key.second ((forward key delta n t).sum + BitVec.ofInt 48 delta) := by
      rw [← second_setWidth, h, second_setWidth]
    have ih := undoneWords_eq_reverse n (retreat key delta s) t hbefore
    rw [undoneWords, addedWords_succ, List.reverse_append, hfirst, hsecond, ih]
    rfl

end

/-! ## The block at the end -/

/-- Delta times rounds in the width of the sum. -/
def wideLastSum (p : Params) : BitVec 48 := BitVec.ofInt 48 (p.delta * p.rounds)

theorem setWidth_wideLastSum (p : Params) : (wideLastSum p).setWidth 40 = (lastSum p).setWidth 40 := by
  rw [wideLastSum, setWidth_ofInt (by omega), setWidth_lastSum]

namespace Params

def decipherFrom (p : Params) (start : BitVec 48) (b : Block) : Block :=
  (backward p.key p.delta p.rounds (.ofBlock b start)).toBlock

/-- **Undoing may start from any sum with the low 40 bits of delta times rounds.** -/
theorem decipherFrom_eq (p : Params) {start : BitVec 48} (h : start.setWidth 40 = (lastSum p).setWidth 40) (b : Block) :
    p.decipherFrom start b = p.decipher b := by
  have hstart : (State.ofBlock b start).narrow = (State.ofBlock b (lastSum p)).narrow := by
    rw [narrow_ofBlock, narrow_ofBlock, h]
  exact toBlock_eq_of_narrow (narrow_backward_congr _ _ _ hstart)

theorem undoneWords_from (p : Params) {start : BitVec 48} (h : start.setWidth 40 = (lastSum p).setWidth 40)
    (a b : Block) : undoneWords p.key p.delta p.rounds (.ofBlock b start) =
      (addedWords p.key p.delta p.rounds (.ofBlock a 0)).reverse := by
  have hend := setWidth_sum_forward p (.ofBlock a 0) rfl
  exact undoneWords_eq_reverse p.key p.delta p.rounds _ _ (h.trans hend.symm)

end Params

namespace Settings

/-- Deciphering a block from delta times rounds in 48 bits. -/
def decipherWide (s : Settings) (b : Block) : Except Fault Block :=
  s.forBlock.map (fun p => p.decipherFrom (wideLastSum p) b)

theorem decipherWide_eq (s : Settings) (b : Block) : s.decipherWide b = s.decipher b := by
  unfold decipherWide decipher
  cases s.forBlock with
  | error f => rfl
  | ok p => exact congrArg Except.ok (p.decipherFrom_eq (setWidth_wideLastSum p) b)

/-- **The sum that undoing starts from may be cut to 40 bits**: with any four natural numbers as the key, any safe count
of rounds and any integer as delta, deciphering any two integers from delta times rounds in 48 bits does not fail and
gives the same block.  Whichever of the two sums it starts from, it chooses for both halves of each round the key words
that enciphering chose in that round, for any block; and running back with these gives the block. -/
theorem narrow_start_harmless (p : Params) (hr : p.rounds ≤ Number.maxSafe) (b : Block) :
    (∃ c, (ofParams p).decipher b = .ok c ∧ (ofParams p).decipherWide b = .ok c) ∧
    ∀ a : Block,
      let words := addedWords p.key p.delta p.rounds (.ofBlock a 0)
      (ofParams p).encipher a = .ok (forwardWith p.delta words (.ofBlock a 0)).toBlock ∧
      ∀ start, start = lastSum p ∨ start = wideLastSum p →
        undoneWords p.key p.delta p.rounds (.ofBlock b start) = words.reverse ∧
        (ofParams p).decipher b = .ok (backwardWith p.delta words.reverse (.ofBlock b start)).toBlock := by
  refine ⟨⟨_, decipher_ofParams hr b, (decipherWide_eq _ b).trans (decipher_ofParams hr b)⟩, fun a => ⟨?_, ?_⟩⟩
  · rw [encipher_ofParams hr, forwardWith_addedWords]
    rfl
  · intro start hstart
    have hlow : start.setWidth 40 = (lastSum p).setWidth 40 := by
      rcases hstart with rfl | rfl
      · rfl
      · exact setWidth_wideLastSum p
    have hwords := p.undoneWords_from hlow a b
    refine ⟨hwords, ?_⟩
    rw [decipher_ofParams hr, ← p.decipherFrom_eq hlow, ← hwords, backwardWith_undoneWords]
    rfl

/-- A negative delta whose multiple has bits 40 to 47 set, a key word over 64 bits, and words over 40 and 64 bits. -/
theorem narrow_start_harmless_wide :
    let p : Params := ⟨⟨0, 1, 0x123456789abcdef0123, 7⟩, 64, -0x9e38538a49⟩
    64 ≤ Number.maxSafe ∧ lastSum p ≠ wideLastSum p ∧
      (ofParams p).decipherWide ⟨-5, 0x1ffffffffffffffffff⟩ = (ofParams p).decipher ⟨-5, 0x1ffffffffffffffffff⟩ ∧
      ∀ a, undoneWords p.key p.delta 64 (.ofBlock ⟨-5, 0x1ffffffffffffffffff⟩ (wideLastSum p)) =
        (addedWords p.key p.delta 64 (.ofBlock a 0)).reverse := by
  intro p
  have hr : p.rounds ≤ Number.maxSafe := by decide
  obtain ⟨⟨c, hnarrow, hwide⟩, hwords⟩ := narrow_start_harmless p hr ⟨-5, 0x1ffffffffffffffffff⟩
  exact ⟨hr, by decide, hwide.trans hnarrow.symm, fun a => ((hwords a).2 (wideLastSum p) (.inr rfl)).1⟩

end Settings
end Cipher
end GlyphChain
