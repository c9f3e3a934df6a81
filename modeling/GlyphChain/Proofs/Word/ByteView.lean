import GlyphChain.Word.Bytes
import Mathlib.Data.List.Induction
/-!
# ByteView — words and their bytes

A list of bytes is the big-endian form of the number it spells, at its own length (`bigEndian_bytesValue`), so leading
zero bytes are all that a wider view adds: the eight bytes of a word that at most eight bytes spell are those bytes
filled up on the left (`toBytes_bytesValue`).  Shifting the bytes in one by one comes to the same number
(`shiftIn_eq_bytesValue`), and the eight bytes of any word spell its storage (`ofBytes_toBytes`).
-/
namespace GlyphChain
namespace Word

theorem bytesValue_lt (bytes : List UInt8) : bytesValue bytes < Nat.pow 256 bytes.length := by
  induction bytes using List.reverseRecOn with
  | nil => exact Nat.one_pos
  | append_singleton bytes b ih =>
    rw [bytesValue_append, List.length_append, List.length_singleton,
      show Nat.pow 256 (bytes.length + 1) = Nat.pow 256 bytes.length * 256 from rfl]
    have := b.toNat_lt
    omega

/-- **A list of bytes is the big-endian form of its value.** -/
theorem bigEndian_bytesValue (bytes : List UInt8) : bigEndian bytes.length (bytesValue bytes) = bytes := by
  induction bytes using List.reverseRecOn with
  | nil => rfl
  | append_singleton bytes b ih =>
    have hb := b.toNat_lt
    have hdiv : (bytesValue bytes * 256 + b.toNat) / 256 = bytesValue bytes := by omega
    have hlast : UInt8.ofNat (bytesValue bytes * 256 + b.toNat) = b := by
      apply UInt8.toNat_inj.1
      rw [UInt8.toNat_ofNat']
      omega
    rw [bytesValue_append, List.length_append, List.length_singleton, bigEndian, hdiv, ih, hlast]

theorem bytesValue_replicate_zero (bytes : List UInt8) :
    ∀ k : Nat, bytesValue (List.replicate k 0 ++ bytes) = bytesValue bytes
  | 0 => rfl
  | k + 1 => by
    rw [List.replicate_succ, List.cons_append, bytesValue, List.foldl_cons]
    exact bytesValue_replicate_zero bytes k

/-- **A wider view of a number that fits a narrower one has zero bytes before it.** -/
theorem bigEndian_add {count n : Nat} (k : Nat) (h : n < Nat.pow 256 count) :
    bigEndian (k + count) n = List.replicate k 0 ++ bigEndian count n := by
  have hval : bytesValue (List.replicate k 0 ++ bigEndian count n) = n := by
    rw [bytesValue_replicate_zero, bytesValue_bigEndian, Nat.mod_eq_of_lt h]
  have hlen : (List.replicate k (0 : UInt8) ++ bigEndian count n).length = k + count := by
    rw [List.length_append, List.length_replicate, length_bigEndian]
  rw [← bigEndian_bytesValue (List.replicate k 0 ++ bigEndian count n), hval, hlen]

/-- **The eight bytes of a word that at most eight bytes spell are those bytes, filled up with zeros on the left.** -/
theorem toBytes_bytesValue {bytes : List UInt8} (h : bytes.length ≤ 8) :
    toBytes (bytesValue bytes) = bytes.leftpad 8 0 := by
  have hpow : Nat.pow 256 bytes.length ≤ span storageBits :=
    (Nat.pow_le_pow_right (by omega) h : Nat.pow 256 bytes.length ≤ Nat.pow 256 8)
  have hlow : low storageBits (bytesValue bytes) = bytesValue bytes :=
    low_eq_self _ _ (Int.natCast_nonneg _) (Int.ofNat_lt.2 (Nat.lt_of_lt_of_le (bytesValue_lt bytes) hpow))
  have hlen : 8 = 8 - bytes.length + bytes.length := by omega
  rw [toBytes, hlow, Int.toNat_natCast, List.leftpad, hlen, bigEndian_add _ (bytesValue_lt bytes), bigEndian_bytesValue,
    ← hlen]

theorem fits_bytesValue (bytes : List UInt8) : Fits (8 * bytes.length) (bytesValue bytes) := by
  have hspan : span (8 * bytes.length) = Nat.pow 256 bytes.length := Nat.pow_mul 2 8 bytes.length
  exact ⟨Int.natCast_nonneg _, Int.ofNat_lt.2 (hspan ▸ bytesValue_lt bytes)⟩

/-- The number that bytes come to when each is shifted in behind those before it. -/
def shiftIn (bytes : List UInt8) : Nat := bytes.foldl (fun n b => n <<< 8 ||| b.toNat) 0

theorem shiftIn_eq_bytesValue (bytes : List UInt8) : shiftIn bytes = bytesValue bytes := by
  have hstep : (fun (n : Nat) (b : UInt8) => n <<< 8 ||| b.toNat) = fun n b => n * 256 + b.toNat := by
    funext n b
    rw [← Nat.shiftLeft_add_eq_or_of_lt b.toNat_lt, Nat.shiftLeft_eq]
  rw [shiftIn, hstep, bytesValue]

theorem ofBytes_eq_ok {bytes : List UInt8} (h : bytes.length ≤ 8) : ofBytes bytes = .ok (bytesValue bytes : Word) :=
  if_pos h

theorem ofBytes_fails_iff (bytes : List UInt8) : (∃ f, ofBytes bytes = .error f) ↔ 8 < bytes.length := by
  by_cases h : bytes.length ≤ 8
  · rw [ofBytes_eq_ok h]
    simp [h]
  · rw [ofBytes, if_neg h]
    simpa using h

/-- **The eight bytes of a word spell its storage.** -/
theorem ofBytes_toBytes (x : Word) : ofBytes (toBytes x) = .ok (low storageBits x) := by
  obtain ⟨n, hn⟩ := Int.eq_ofNat_of_zero_le (low_nonneg storageBits x)
  have hlt : n < Nat.pow 256 8 := Int.ofNat_lt.1 (hn ▸ low_lt storageBits x)
  have hlen : (toBytes x).length = 8 := length_bigEndian 8 _
  rw [ofBytes_eq_ok (Nat.le_of_eq hlen), toBytes, hn, Int.toNat_natCast, bytesValue_bigEndian, Nat.mod_eq_of_lt hlt]

/-- **The two views of a word are inverse.**  Reading the eight bytes of any word gives the low 64 bits of it.  At most
eight bytes are read as the number that shifting them in one by one gives, which needs no more bits than they have, and
its eight bytes are those bytes with zeros before them; more than eight are refused, and nothing else is. -/
theorem byte_views_inverse :
    (∀ x : Word, ofBytes (toBytes x) = .ok (low storageBits x)) ∧
    (∀ bytes : List UInt8, bytes.length ≤ 8 → ∃ x : Word, ofBytes bytes = .ok x ∧ x = shiftIn bytes ∧
      toBytes x = bytes.leftpad 8 0 ∧ 0 ≤ x ∧ x < Nat.pow 2 (8 * bytes.length)) ∧
    ∀ bytes : List UInt8, (∃ f, ofBytes bytes = .error f) ↔ 8 < bytes.length := by
  refine ⟨ofBytes_toBytes, fun bytes h => ?_, ofBytes_fails_iff⟩
  exact ⟨bytesValue bytes, ofBytes_eq_ok h, congrArg Int.ofNat (shiftIn_eq_bytesValue bytes).symm, toBytes_bytesValue h,
    fits_bytesValue bytes⟩

/-- A negative word over 64 bits, three bytes the first of which is zero, and nine. -/
theorem byte_views_inverse_edges :
    ofBytes (toBytes (-0x1000000000000000000fe)) = .ok 0xffffffffffffff02 ∧
      (∃ x : Word, ofBytes [0, 0x1f, 2] = .ok x ∧ toBytes x = [0, 0, 0, 0, 0, 0, 0x1f, 2]) ∧
      ∃ f, ofBytes (List.replicate 9 0) = .error f := by
  obtain ⟨hword, hbytes, hfails⟩ := byte_views_inverse
  obtain ⟨x, hx, -, hview, -⟩ := hbytes [0, 0x1f, 2] (by decide)
  exact ⟨hword _, ⟨x, hx, hview⟩, (hfails _).2 (by decide)⟩

end Word
end GlyphChain
