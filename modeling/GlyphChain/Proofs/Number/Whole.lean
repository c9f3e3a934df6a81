import GlyphChain.Number.Nearest
/-!
# Whole — whole numbers as the nearest doubles

Up to 53 bits a whole number is a double itself (`nearestGrains_exact`).  From 2^53 on the nearest double may be another
number, but it is none below 2^53: that is a double too, and the first 53 bits of a number are kept or rounded up
(`le_nearestGrains`).  So no whole number is rounded into the safe ones from outside (`ofDecimal_eq_ofInt_iff`).
-/
namespace GlyphChain
namespace Number

/-! ## Rounding to a unit -/

theorem two_pow_add (a b : Nat) : Nat.pow 2 (a + b) = Nat.pow 2 a * Nat.pow 2 b := Nat.pow_add 2 a b

theorem log2_mul_two_pow {n : Nat} (hn : n ≠ 0) (k : Nat) : (n * Nat.pow 2 k).log2 = n.log2 + k := by
  have hpos : 0 < Nat.pow 2 k := Nat.two_pow_pos k
  have hadd : ∀ m, 2 ^ (m + k) = 2 ^ m * Nat.pow 2 k := fun m => two_pow_add m k
  rw [Nat.log2_eq_iff (Nat.mul_ne_zero hn (Nat.ne_of_gt hpos)), Nat.add_right_comm, hadd, hadd]
  exact ⟨Nat.mul_le_mul_right _ (Nat.log2_self_le hn), Nat.mul_lt_mul_of_pos_right Nat.lt_log2_self hpos⟩

theorem le_roundDiv (n d : Nat) : n / d ≤ roundDiv n d := by
  unfold roundDiv
  split <;> omega

theorem roundDiv_mul (q : Nat) {d : Nat} (hd : 0 < d) : roundDiv (q * d) d = q := by
  unfold roundDiv
  rw [Nat.mul_mod_left, Nat.mul_div_cancel q hd]
  exact if_pos (.inl hd)

/-! ## Whole numbers of grains -/

theorem perUnit_eq : ∃ k, perUnit = Nat.pow 2 (52 + k) := by
  have h : ∀ n, 52 ≤ n → ∃ k, Nat.pow 2 n = Nat.pow 2 (52 + k) :=
    fun n hn => ⟨n - 52, by rw [Nat.add_sub_cancel' hn]⟩
  unfold perUnit
  exact h 1074 (by decide)

section
variable {n k : Nat}

theorem nearestGrains_whole (hk : perUnit = Nat.pow 2 (52 + k)) (hn : n ≠ 0) :
    nearestGrains n 1 = roundDiv (n * perUnit) (Nat.pow 2 (n.log2 + k)) * Nat.pow 2 (n.log2 + k) := by
  have hspare : spareBits (n * perUnit / 1) = n.log2 + k := by
    rw [Nat.div_one, hk, spareBits, log2_mul_two_pow hn]
    omega
  rw [nearestGrains, hspare, Nat.one_mul]

/-- **A whole number of at most 53 bits is a double.** -/
theorem nearestGrains_exact (hn : n ≠ 0) (h : n < Nat.pow 2 53) : nearestGrains n 1 = n * perUnit := by
  obtain ⟨k, hk⟩ := perUnit_eq
  have hlog : n.log2 < 53 := (Nat.log2_lt hn).2 h
  have hunit : 0 < Nat.pow 2 (n.log2 + k) := Nat.two_pow_pos _
  have hgrains : n * perUnit = n * Nat.pow 2 (52 - n.log2) * Nat.pow 2 (n.log2 + k) := by
    rw [hk, Nat.mul_assoc, ← two_pow_add]
    exact congrArg (fun m => n * Nat.pow 2 m) (by omega)
  rw [nearestGrains_whole hk hn, hgrains, roundDiv_mul _ hunit]

/-- **No whole number from 2^53 on is rounded below 2^53.** -/
theorem le_nearestGrains (h : Nat.pow 2 53 ≤ n) : Nat.pow 2 53 * perUnit ≤ nearestGrains n 1 := by
  obtain ⟨k, hk⟩ := perUnit_eq
  have hn : n ≠ 0 := Nat.ne_of_gt (Nat.lt_of_lt_of_le (Nat.two_pow_pos 53) h)
  have hlog : 53 ≤ n.log2 := (Nat.le_log2 hn).2 h
  have hunit : 0 < Nat.pow 2 (n.log2 + k) := Nat.two_pow_pos _
  -- the first bit of the number, in the unit that it is rounded to
  have hfirst : Nat.pow 2 n.log2 * perUnit = Nat.pow 2 52 * Nat.pow 2 (n.log2 + k) := by
    rw [hk, ← two_pow_add, ← two_pow_add, Nat.add_left_comm]
  have hquotient : Nat.pow 2 52 ≤ n * perUnit / Nat.pow 2 (n.log2 + k) := by
    rw [Nat.le_div_iff_mul_le hunit, ← hfirst]
    exact Nat.mul_le_mul_right _ (Nat.log2_self_le hn)
  calc Nat.pow 2 53 * perUnit ≤ Nat.pow 2 n.log2 * perUnit :=
        Nat.mul_le_mul_right _ (Nat.pow_le_pow_right Nat.two_pos hlog)
    _ = Nat.pow 2 52 * Nat.pow 2 (n.log2 + k) := hfirst
    _ ≤ roundDiv (n * perUnit) (Nat.pow 2 (n.log2 + k)) * Nat.pow 2 (n.log2 + k) :=
        Nat.mul_le_mul_right _ (Nat.le_trans hquotient (le_roundDiv _ _))
    _ = nearestGrains n 1 := (nearestGrains_whole hk hn).symm

theorem lt_overflow (h : n < Nat.pow 2 53) : n * perUnit < overflow := by
  have hpow : ∀ m, 53 ≤ m → n * perUnit < Nat.pow 2 m * perUnit := fun m hm =>
    Nat.mul_lt_mul_of_pos_right (Nat.lt_of_lt_of_le h (Nat.pow_le_pow_right Nat.two_pos hm)) perUnit_pos
  unfold overflow
  exact hpow 1024 (by decide)

end

/-! ## Whole numbers as doubles -/

def signed (negative : Bool) (n : Nat) : Int := if negative then -n else n

theorem natAbs_signed (negative : Bool) (n : Nat) : (signed negative n).natAbs = n := by
  cases negative <;> simp [signed]

theorem signed_mul (negative : Bool) (n m : Nat) : signed negative n * m = signed negative (n * m) := by
  cases negative with
  | false => rfl
  | true => exact Int.neg_mul n m

theorem ofInt_inj {x y : Int} : ofInt x = ofInt y ↔ x = y := by
  constructor
  · intro h
    have hx := toInt?_ofInt x
    rw [h, toInt?_ofInt] at hx
    exact (Option.some.inj hx).symm
  · rintro rfl
    rfl

theorem ofDecimal_whole (negative : Bool) {n : Nat} (hn : n ≠ 0) :
    ofDecimal negative n 0 = ofFraction negative n 1 := by
  have hexp : ¬ (309 : Int) ≤ 0 := by decide
  have hrange : ¬ (0 : Int) + n.log2 + 400 < 0 := by omega
  rw [ofDecimal, if_neg hn, if_neg hexp, if_neg hrange, if_pos (Int.le_refl 0)]
  exact congrArg (ofFraction negative · 1) (Nat.mul_one n)

theorem ofDecimal_exact (negative : Bool) {n : Nat} (h : n < Nat.pow 2 53) :
    ofDecimal negative n 0 = .ofInt (signed negative n) := by
  by_cases hn : n = 0
  · rw [hn]
    cases negative <;> simp [ofDecimal, ofInt, signed]
  · rw [ofDecimal_whole negative hn, ofFraction, nearestGrains_exact hn h, if_neg (Nat.not_le.2 (lt_overflow h)), ofInt,
      signed_mul, signed]

theorem finite_of_ofFraction {negative : Bool} {n d : Nat} {g : Int} (h : ofFraction negative n d = .finite g) :
    g.natAbs = nearestGrains n d := by
  unfold ofFraction at h
  split at h
  · cases h
  · rw [← Number.finite.inj h]
    exact natAbs_signed negative _

/-- **A whole number is read as a safe integer only if it is that integer.** -/
theorem ofDecimal_eq_ofInt_iff {negative : Bool} {n : Nat} {x : Int} (hx : x.natAbs ≤ maxSafe) :
    ofDecimal negative n 0 = .ofInt x ↔ x = signed negative n := by
  have hlt : x.natAbs < Nat.pow 2 53 := Nat.lt_of_le_of_lt hx (by decide)
  by_cases h : n < Nat.pow 2 53
  · rw [ofDecimal_exact negative h, ofInt_inj, eq_comm]
  · have hle : Nat.pow 2 53 ≤ n := Nat.le_of_not_lt h
    have hn : n ≠ 0 := Nat.ne_of_gt (Nat.lt_of_lt_of_le (Nat.two_pow_pos 53) hle)
    constructor
    · intro heq
      -- the grains of `x` are too few for what `n` is rounded to
      rw [ofDecimal_whole negative hn] at heq
      have hgrains := finite_of_ofFraction heq
      have hfar := le_nearestGrains hle
      rw [← hgrains, Int.natAbs_mul, Int.natAbs_natCast] at hfar
      exact absurd (Nat.le_of_mul_le_mul_right hfar perUnit_pos) (Nat.not_le.2 hlt)
    · rintro rfl
      rw [natAbs_signed] at hlt
      exact absurd hlt h

end Number
end GlyphChain
