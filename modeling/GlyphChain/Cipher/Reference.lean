import GlyphChain.Cipher.Key
/-!
# Reference — the block cipher in 40 bits

The cipher in its own width: words, key words, delta, the sum and everything in between are residues modulo 2^40.  The
cipher on wider storage is measured against this one.
-/
namespace GlyphChain
namespace Cipher
namespace Reference

/-- The two words and the sum between two rounds. -/
structure State where
  v0 : BitVec 40
  v1 : BitVec 40
  sum : BitVec 40

def mix (x sum k : BitVec 40) : BitVec 40 := (((x <<< 4) ^^^ (x >>> 5)) + x) ^^^ (sum + k)

def advance (key : Key) (delta : BitVec 40) (s : State) : State :=
  let v0 := s.v0 + mix s.v1 s.sum (BitVec.ofNat 40 (key.first s.sum))
  let sum := s.sum + delta
  ⟨v0, s.v1 + mix v0 sum (BitVec.ofNat 40 (key.second sum)), sum⟩

def retreat (key : Key) (delta : BitVec 40) (s : State) : State :=
  let v1 := s.v1 - mix s.v0 s.sum (BitVec.ofNat 40 (key.second s.sum))
  let sum := s.sum - delta
  ⟨s.v0 - mix v1 sum (BitVec.ofNat 40 (key.first sum)), v1, sum⟩

def forward (key : Key) (delta : BitVec 40) : Nat → State → State
  | 0, s => s
  | n + 1, s => forward key delta n (advance key delta s)

def backward (key : Key) (delta : BitVec 40) : Nat → State → State
  | 0, s => s
  | n + 1, s => backward key delta n (retreat key delta s)

/-- The two words after `rounds` rounds from a zero sum. -/
def encipher (key : Key) (rounds : Nat) (delta : BitVec 40) (v0 v1 : BitVec 40) : BitVec 40 × BitVec 40 :=
  let s := forward key delta rounds ⟨v0, v1, 0⟩
  (s.v0, s.v1)

/-- The two words after undoing `rounds` rounds from the sum `rounds · delta`. -/
def decipher (key : Key) (rounds : Nat) (delta : BitVec 40) (v0 v1 : BitVec 40) : BitVec 40 × BitVec 40 :=
  let s := backward key delta rounds ⟨v0, v1, BitVec.ofNat 40 rounds * delta⟩
  (s.v0, s.v1)

end Reference
end Cipher
end GlyphChain
