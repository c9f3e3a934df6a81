import GlyphChain.Proofs.Word.Grammar
import Mathlib.Data.Set.Function
/-!
# Printed — which printed words read back

Every integer can be printed in hexadecimal, with any number of places.  What reading makes of it depends on the sign and
the size of the integer alone (`read_toHex`): one that storage holds comes back, one without a sign that is too large
has all its digits in the text and is refused for its value, and a negative one has its hyphen behind the fill, as in
`0x00000000-5`, and is refused as no hexadecimal text.
-/
namespace GlyphChain
namespace Word

theorem hyphen_mem_leftpad (k n : Nat) : '-' ∈ (Digits.writeInt 16 (.negSucc n)).leftpad k '0' := by
  rw [List.leftpad]
  exact List.mem_append_right _ List.mem_cons_self

/-- **A hyphen among the digits is refused**, wherever it stands. -/
theorem spelled_of_hyphen {raw : Text} {ds : List Char} (hraw : raw.chars = '0' :: 'x' :: ds) (h : '-' ∈ ds) :
    spelled raw = .error (.notHex raw) := by
  have hread : Digits.read? 16 (ds.filter (· != '_')) = none := by
    refine Option.eq_none_iff_forall_ne_some.2 fun n hn => ?_
    have hdigits := (read?_hex_iff.1 hn).1
    rcases hdigits '-' h with hhex | heq
    · exact absurd hhex (by decide)
    · exact absurd heq (by decide)
  simp only [spelled, hraw, hread]

theorem integer_toHex_negSucc (digits : Int) (n : Nat) :
    integer (.text (toHex digits (.negSucc n))) = .error (.notHex (toHex digits (.negSucc n))) := by
  rw [integer, trim_toHex]
  refine spelled_of_hyphen ?_ (hyphen_mem_leftpad digits.toNat n)
  rw [chars_toHex, toHex, String.toList_ofList]

/-- **What reading a printed word gives**, whatever the number of places. -/
theorem read_toHex (field : String) (digits : Int) (x : Word) : read field (.text (toHex digits x)) =
    if x < 0 then .error (.word field (.notHex (toHex digits x)))
    else if Fits storageBits x then .ok x else .error (.word field (.outOfRange x)) := by
  cases x with
  | negSucc n =>
    rw [if_pos (Int.negSucc_lt_zero n), read, integer_toHex_negSucc]
    rfl
  | ofNat n =>
    have hpos : (0 : Int) ≤ .ofNat n := Int.natCast_nonneg n
    have hint := (Spelling.hex (x := .ofNat n) digits).integer hpos
    have hrange : inRange (.ofNat n) =
        if Fits storageBits (.ofNat n) then .ok (.ofNat n) else .error (.outOfRange (.ofNat n)) := rfl
    rw [if_neg (Int.not_lt.2 hpos), read, hint, Except.bind, hrange]
    by_cases hfits : Fits storageBits (.ofNat n)
    · rw [if_pos hfits, if_pos hfits]
      rfl
    · rw [if_neg hfits, if_neg hfits]
      rfl

theorem read_toHex_eq_ok_iff {field : String} {digits : Int} {x y : Word} :
    read field (.text (toHex digits x)) = .ok y ↔ Fits storageBits x ∧ y = x := by
  rw [read_toHex]
  by_cases hneg : x < 0
  · rw [if_pos hneg]
    constructor
    · intro h
      cases h
    · rintro ⟨hfits, -⟩
      exact absurd hneg (Int.not_lt.2 hfits.1)
  · rw [if_neg hneg]
    by_cases hfits : Fits storageBits x
    · rw [if_pos hfits, Except.ok.injEq, eq_comm]
      exact (and_iff_right hfits).symm
    · rw [if_neg hfits]
      constructor
      · intro h
        cases h
      · rintro ⟨h, -⟩
        exact absurd h hfits

theorem toHex_injOn (digits : Int) : Set.InjOn (toHex digits) {x | Fits storageBits x} := by
  intro x hx y hy hxy
  have hread : read "" (.text (toHex digits x)) = .ok x := read_toHex_eq_ok_iff.2 ⟨hx, rfl⟩
  rw [hxy] at hread
  exact (read_toHex_eq_ok_iff.1 hread).2

/-- **Printing in hexadecimal and reading are inverse exactly on 64 bits**, for every integer, every number of places
(zero and negative ones too) and every name of the place it is read from.  A printed word is read if and only if it is
at least zero and below 2^64, and nothing but itself is ever read from it; so with a fixed number of places no two of
these words are printed alike.  A negative word is refused as no hexadecimal text, and one from 2^64 on for its value. -/
theorem read_toHex_inverse (field : String) (digits : Int) :
    (∀ x : Word, (∃ y, read field (.text (toHex digits x)) = .ok y) ↔ 0 ≤ x ∧ x ≤ 0xffffffffffffffff) ∧
    (∀ x y : Word, read field (.text (toHex digits x)) = .ok y → y = x) ∧
    Set.InjOn (toHex digits) {x | 0 ≤ x ∧ x ≤ 0xffffffffffffffff} ∧
    (∀ x : Word, x < 0 → read field (.text (toHex digits x)) = .error (.word field (.notHex (toHex digits x)))) ∧
    ∀ x : Word, 0xffffffffffffffff < x →
      read field (.text (toHex digits x)) = .error (.word field (.outOfRange x)) := by
  refine ⟨fun x => ?_, fun x y h => (read_toHex_eq_ok_iff.1 h).2, ?_, fun x hx => ?_, fun x hx => ?_⟩
  · rw [← fits_storage_iff]
    constructor
    · rintro ⟨y, hy⟩
      exact (read_toHex_eq_ok_iff.1 hy).1
    · intro hfits
      exact ⟨x, read_toHex_eq_ok_iff.2 ⟨hfits, rfl⟩⟩
  · intro x hx y hy
    exact toHex_injOn digits (fits_storage_iff.2 hx) (fits_storage_iff.2 hy)
  · rw [read_toHex, if_pos hx]
  · have hlarge : ¬ Fits storageBits x := fun h => absurd hx (Int.not_lt.2 (fits_storage_iff.1 h).2)
    have hpos : ¬ x < 0 := Int.not_lt.2 (Int.le_trans (by decide) (Int.le_of_lt hx))
    rw [read_toHex, if_neg hpos, if_neg hlarge]

/-- The hyphen in the middle of ten places, the greatest word with more places than it needs, and the one after it with
fewer than none. -/
theorem read_toHex_inverse_edges :
    toHex 10 (-5) = "0x00000000-5" ∧
      read "w" (.text (toHex 10 (-5))) = .error (.word "w" (.notHex "0x00000000-5")) ∧
      (∃ y, read "w" (.text (toHex 20 0xffffffffffffffff)) = .ok y ∧ y = 0xffffffffffffffff) ∧
      read "w" (.text (toHex (-3) 0x10000000000000000)) = .error (.word "w" (.outOfRange 0x10000000000000000)) := by
  obtain ⟨-, -, -, hnegative, -⟩ := read_toHex_inverse "w" 10
  obtain ⟨hiff, hself, -, -, -⟩ := read_toHex_inverse "w" 20
  obtain ⟨-, -, -, -, hlarge⟩ := read_toHex_inverse "w" (-3)
  have htext : toHex 10 (-5) = "0x00000000-5" := by decide +kernel
  obtain ⟨y, hy⟩ := (hiff 0xffffffffffffffff).2 (by decide)
  have hminus := hnegative (-5) (by decide)
  rw [htext] at hminus
  exact ⟨htext, htext ▸ hminus, ⟨y, hy, hself _ y hy⟩, hlarge _ (by decide)⟩

end Word
end GlyphChain
