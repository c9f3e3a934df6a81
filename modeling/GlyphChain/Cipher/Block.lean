import GlyphChain.Cipher.Key
import GlyphChain.Word.Basic
/-!
# Block — the block cipher

A block is two words.  Each round adds to the first word a mix of the second, then to the second a mix of the first,
with a key word and a running sum that grows by delta in between; undoing takes the same steps backwards.  Words live
in 64-bit storage and the sum in 48 bits, but the right shift of the mix sees only the low 40 bits of its word, so
nothing above bit 39 ever reaches the low 40 bits of a result, and the low 40 bits are the result.
-/
namespace GlyphChain

structure Block where
  v0 : Word
  v1 : Word
  deriving DecidableEq

namespace Cipher

open Word (blockBits sumBits storageBits)

/-- The step of the round sum, unless a profile says otherwise. -/
def defaultDelta : Word := 0x9e38538a49

/-- The count of rounds, unless a profile says otherwise. -/
def defaultRounds : Nat := 32

/-- What a cipher is set to. -/
structure Params where
  key : Key
  rounds : Nat
  delta : Word

/-- The two words and the sum between two rounds. -/
structure State where
  v0 : BitVec storageBits
  v1 : BitVec storageBits
  sum : BitVec sumBits

/-- The mix of a stored word with a sum and a key word. -/
def mix (x sum k : BitVec storageBits) : BitVec storageBits :=
  (((x <<< 4) ^^^ ((x.setWidth blockBits) >>> 5).setWidth storageBits) + x) ^^^ (sum + k)

/-- The mix of three words, each cut to storage. -/
def roundFunction (x sum k : Word) : Word :=
  (mix (BitVec.ofInt storageBits x) (BitVec.ofInt storageBits sum) (BitVec.ofInt storageBits k)).toNat

/-- What the first half-round adds to the first word. -/
def firstMix (key : Key) (x : BitVec storageBits) (sum : BitVec sumBits) : BitVec storageBits :=
  mix x (sum.setWidth storageBits) (BitVec.ofNat storageBits (key.first sum))

/-- What the second half-round adds to the second word. -/
def secondMix (key : Key) (x : BitVec storageBits) (sum : BitVec sumBits) : BitVec storageBits :=
  mix x (sum.setWidth storageBits) (BitVec.ofNat storageBits (key.second sum))

def advance (key : Key) (delta : Word) (s : State) : State :=
  let v0 := s.v0 + firstMix key s.v1 s.sum
  let sum := s.sum + BitVec.ofInt sumBits delta
  ⟨v0, s.v1 + secondMix key v0 sum, sum⟩

def retreat (key : Key) (delta : Word) (s : State) : State :=
  let v1 := s.v1 - secondMix key s.v0 s.sum
  let sum := s.sum - BitVec.ofInt sumBits delta
  ⟨s.v0 - firstMix key v1 sum, v1, sum⟩

def forward (key : Key) (delta : Word) : Nat → State → State
  | 0, s => s
  | n + 1, s => forward key delta n (advance key delta s)

def backward (key : Key) (delta : Word) : Nat → State → State
  | 0, s => s
  | n + 1, s => backward key delta n (retreat key delta s)

@[simp] theorem retreat_advance (key : Key) (delta : Word) (s : State) :
    retreat key delta (advance key delta s) = s := by
  simp only [retreat, advance, BitVec.add_sub_cancel]

@[simp] theorem advance_retreat (key : Key) (delta : Word) (s : State) :
    advance key delta (retreat key delta s) = s := by
  simp only [retreat, advance, BitVec.sub_add_cancel]

theorem forward_succ (key : Key) (delta : Word) (n : Nat) (s : State) :
    forward key delta (n + 1) s = advance key delta (forward key delta n s) := by
  induction n generalizing s with
  | zero => rfl
  | succ n ih => rw [forward, ih (advance key delta s)]; rfl

/-- **On storage, undoing takes a run of rounds back to where it began.** -/
theorem backward_forward (key : Key) (delta : Word) (n : Nat) (s : State) :
    backward key delta n (forward key delta n s) = s := by
  induction n generalizing s with
  | zero => rfl
  | succ n ih => rw [forward_succ, backward, retreat_advance, ih]

/-- A block put into storage beside a sum. -/
def State.ofBlock (b : Block) (sum : BitVec sumBits) : State :=
  ⟨BitVec.ofInt storageBits b.v0, BitVec.ofInt storageBits b.v1, sum⟩

/-- The low 40 bits of the two words. -/
def State.toBlock (s : State) : Block := ⟨(s.v0.setWidth blockBits).toNat, (s.v1.setWidth blockBits).toNat⟩

/-- The sum that undoing starts from: delta times rounds, cut to 40 bits. -/
def lastSum (p : Params) : BitVec sumBits := (BitVec.ofInt blockBits (p.delta * p.rounds)).setWidth sumBits

namespace Params

def encipher (p : Params) (b : Block) : Block :=
  (forward p.key p.delta p.rounds (.ofBlock b 0)).toBlock

def decipher (p : Params) (b : Block) : Block :=
  (backward p.key p.delta p.rounds (.ofBlock b (lastSum p))).toBlock

end Params
end Cipher
end GlyphChain
