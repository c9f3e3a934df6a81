/-!
# Word — integers cut to a width

A word is an integer of any size and sign.  The cipher gives meaning to its low 40 bits, the round sum to 48, and
storage to 64; cutting a word to a width takes its remainder, so a negative word folds to its two's complement.
-/
namespace GlyphChain

abbrev Word := Int

namespace Word

/-- How many words fit in a width. -/
def span (bits : Nat) : Nat := Nat.pow 2 bits

/-- The low bits of a word, as a non-negative word. -/
def low (bits : Nat) (x : Word) : Word := x % span bits

/-- How many bits of a block word carry meaning. -/
abbrev blockBits : Nat := 40

/-- How many bits of the round sum are kept. -/
abbrev sumBits : Nat := 48

/-- How many bits a word is stored in. -/
abbrev storageBits : Nat := 64

theorem span_pos (bits : Nat) : 0 < span bits := Nat.two_pow_pos bits

theorem low_nonneg (bits : Nat) (x : Word) : 0 ≤ low bits x :=
  Int.emod_nonneg x (by have := span_pos bits; omega)

theorem low_lt (bits : Nat) (x : Word) : low bits x < span bits :=
  Int.emod_lt_of_pos x (by have := span_pos bits; omega)

/-- **A word that fits is not cut.** -/
theorem low_eq_self (bits : Nat) (x : Word) (h0 : 0 ≤ x) (h : x < span bits) : low bits x = x :=
  Int.emod_eq_of_lt h0 h

@[simp] theorem low_low (bits : Nat) (x : Word) : low bits (low bits x) = low bits x :=
  low_eq_self bits _ (low_nonneg bits x) (low_lt bits x)

/-- A word that a width holds without a sign. -/
def Fits (bits : Nat) (x : Word) : Prop := 0 ≤ x ∧ x < span bits

instance (bits : Nat) (x : Word) : Decidable (Fits bits x) := inferInstanceAs (Decidable (_ ∧ _))

theorem fits_low (bits : Nat) (x : Word) : Fits bits (low bits x) := ⟨low_nonneg bits x, low_lt bits x⟩

theorem Fits.low_eq {bits : Nat} {x : Word} (h : Fits bits x) : low bits x = x := low_eq_self bits x h.1 h.2

theorem Fits.mono {a b : Nat} {x : Word} (hab : a ≤ b) (h : Fits a x) : Fits b x :=
  ⟨h.1, Int.lt_of_lt_of_le h.2 (Int.ofNat_le.2 (Nat.pow_le_pow_right Nat.two_pos hab))⟩

theorem fits_map_low (bits : Nat) (ws : List Word) : ∀ w ∈ ws.map (low bits), Fits bits w := by
  intro w hw
  obtain ⟨x, -, rfl⟩ := List.mem_map.1 hw
  exact fits_low bits x

/-- **A list of words that fit is not cut.** -/
theorem map_low_eq_self {bits : Nat} {ws : List Word} (h : ∀ w ∈ ws, Fits bits w) : ws.map (low bits) = ws := by
  rw [List.map_congr_left (fun w hw => (h w hw).low_eq), List.map_id']

end Word
end GlyphChain
