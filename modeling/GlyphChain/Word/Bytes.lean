import GlyphChain.Fault
import GlyphChain.Word.Basic
/-!
# Bytes — words as bytes, most significant first

`toBytes` is the eight-byte view of a word's storage, and `ofBytes` reads at most eight bytes back.
-/
namespace GlyphChain
namespace Word

/-- The low `count` bytes of a natural number, most significant first. -/
def bigEndian : Nat → Nat → List UInt8
  | 0, _ => []
  | count + 1, n => bigEndian count (n / 256) ++ [UInt8.ofNat n]

/-- The number that a list of bytes spells, most significant first. -/
def bytesValue (bytes : List UInt8) : Nat := bytes.foldl (fun n b => n * 256 + b.toNat) 0

/-- The eight bytes of a word's storage. -/
def toBytes (x : Word) : List UInt8 := bigEndian 8 (low storageBits x).toNat

/-- The word that at most eight bytes spell. -/
def ofBytes (bytes : List UInt8) : Except Fault Word :=
  if bytes.length ≤ 8 then .ok (bytesValue bytes) else .error (.byteCount bytes.length)

@[simp] theorem length_bigEndian (count n : Nat) : (bigEndian count n).length = count := by
  induction count generalizing n with
  | zero => rfl
  | succ count ih => simp [bigEndian, ih]

theorem bytesValue_append (bytes : List UInt8) (b : UInt8) :
    bytesValue (bytes ++ [b]) = bytesValue bytes * 256 + b.toNat := by
  simp [bytesValue]

/-- **The low bytes of a number spell its remainder.** -/
theorem bytesValue_bigEndian (count n : Nat) : bytesValue (bigEndian count n) = n % Nat.pow 256 count := by
  induction count generalizing n with
  | zero => simp [bigEndian, bytesValue, Nat.mod_one]
  | succ count ih =>
    have h : n % Nat.pow 256 (count + 1) = n % 256 + 256 * (n / 256 % Nat.pow 256 count) := by
      rw [show Nat.pow 256 (count + 1) = 256 * Nat.pow 256 count from Nat.pow_succ', Nat.mod_mul]
    rw [bigEndian, bytesValue_append, ih, UInt8.toNat_ofNat', h]
    omega

end Word
end GlyphChain
