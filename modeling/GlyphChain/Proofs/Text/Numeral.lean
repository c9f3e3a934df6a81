import GlyphChain.Proofs.Text.Points
import GlyphChain.Text.Blank
import GlyphChain.Text.Digits
/-!
# Numeral — written numerals, filled up and trimmed

A numeral is made of digit symbols of its base (`mem_write`), is as long as its number needs (`length_write_le`), and
reads back also with zeros before it (`read?_leftpad_write`).  No digit symbol is a blank, so trimming leaves a numeral
alone.
-/
namespace GlyphChain
namespace Digits

/-- **Every character of a numeral is the symbol of a digit of the base.** -/
theorem mem_write {base : Nat} (h2 : 2 ≤ base) (n : Nat) {c : Char} (hc : c ∈ write base n) :
    ∃ d, d < base ∧ c = symbol d := by
  induction n using write.induct base with
  | case1 n h =>
    rw [write, dif_pos h, List.mem_singleton] at hc
    exact ⟨n, by omega, hc⟩
  | case2 n h ih =>
    rw [write, dif_neg h, List.mem_append, List.mem_singleton] at hc
    rcases hc with hc | hc
    · exact ih hc
    · exact ⟨n % base, Nat.mod_lt _ (by omega), hc⟩

/-- **A number below a power of the base needs at most that many digits.** -/
theorem length_write_le (base n : Nat) :
    ∀ k, 0 < k → n < Nat.pow base k → (write base n).length ≤ k := by
  induction n using write.induct base with
  | case1 n h =>
    intro k hk _
    rw [write, dif_pos h]
    exact hk
  | case2 n h ih =>
    intro k hk hn
    rw [write, dif_neg h, List.length_append, List.length_singleton]
    cases k with
    | zero => cases hk
    | succ k =>
      cases k with
      | zero =>
        rw [show Nat.pow base (0 + 1) = base from Nat.pow_one base] at hn
        omega
      | succ k =>
        have hdiv : n / base < Nat.pow base (k + 1) := Nat.div_lt_of_lt_mul (by
          rw [show Nat.pow base (k + 1 + 1) = base * Nat.pow base (k + 1) from Nat.pow_succ'] at hn
          exact hn)
        have := ih (k + 1) (by omega) hdiv
        omega

theorem value_replicate_zero (base : Nat) (ds : List Nat) : ∀ m : Nat, value base (List.replicate m 0 ++ ds) = value base ds
  | 0 => rfl
  | m + 1 => by
    rw [List.replicate_succ, List.cons_append, value, List.foldl_cons, Nat.zero_mul]
    exact value_replicate_zero base ds m

theorem mapM_replicate_zero {base : Nat} (h2 : 2 ≤ base) :
    ∀ m : Nat, (List.replicate m '0').mapM (digit? base) = some (List.replicate m 0)
  | 0 => rfl
  | m + 1 => by
    have hzero : digit? base '0' = some 0 := by
      rw [digit?, show ofSymbol? '0' = some 0 from by decide, Option.filter_some, if_pos (by simp; omega)]
    rw [List.replicate_succ, List.mapM_cons, hzero, mapM_replicate_zero h2 m]
    rfl

/-- **A numeral with zeros before it reads back.** -/
theorem read?_leftpad_write {base : Nat} (h2 : 2 ≤ base) (hb : base ≤ 16) (k n : Nat) :
    read? base ((write base n).leftpad k '0') = some n := by
  obtain ⟨ds, hds, hv⟩ := mapM_write base h2 hb n
  have hne : (write base n).leftpad k '0' ≠ [] := by
    rw [List.leftpad]
    exact List.append_ne_nil_of_right_ne_nil _ (write_ne_nil base n)
  rw [read?, if_neg (by simpa using hne), List.leftpad, List.mapM_append, mapM_replicate_zero h2, hds]
  exact congrArg some ((value_replicate_zero base ds _).trans hv)

theorem mem_leftpad_write {base : Nat} (h2 : 2 ≤ base) (k n : Nat) {c : Char} (hc : c ∈ (write base n).leftpad k '0') :
    ∃ d, d < base ∧ c = symbol d := by
  rw [List.leftpad, List.mem_append] at hc
  rcases hc with hc | hc
  · exact ⟨0, by omega, List.eq_of_mem_replicate hc⟩
  · exact mem_write h2 n hc

theorem isBlank_symbol {d : Nat} (hd : d < 16) : Text.isBlank (symbol d).toNat = false := by
  have h : ∀ d < 16, Text.isBlank (symbol d).toNat = false := by decide
  exact h d hd

theorem toNat_symbol_lt {d : Nat} (hd : d < 16) : (symbol d).toNat < 128 := by
  have h : ∀ d < 16, (symbol d).toNat < 128 := by decide
  exact h d hd

theorem symbol_ne_underscore {d : Nat} (hd : d < 16) : symbol d ≠ '_' := by
  have h : ∀ d < 16, symbol d ≠ '_' := by decide
  exact h d hd

end Digits

namespace Text

theorem dropWhile_eq_self {α : Type} {blank : α → Bool} {xs : List α}
    (h : ∀ x, xs.head? = some x → blank x = false) : xs.dropWhile blank = xs := by
  cases xs with
  | nil => rfl
  | cons x xs => rw [List.dropWhile_cons, h x rfl]; rfl

theorem strip_eq_self {α : Type} {blank : α → Bool} {xs : List α} (h : ∀ x ∈ xs, blank x = false) :
    strip blank xs = xs := by
  have hfront : xs.dropWhile blank = xs := dropWhile_eq_self (fun x hx => h x (List.mem_of_head? hx))
  have hback : xs.reverse.dropWhile blank = xs.reverse :=
    dropWhile_eq_self (fun x hx => h x (List.mem_reverse.1 (List.mem_of_head? hx)))
  rw [strip, hfront, hback, List.reverse_reverse]

/-- **A text of characters without blanks is not trimmed.** -/
theorem trim_ofChars {cs : List Char} (h : ∀ c ∈ cs, c.toNat < 128 ∧ isBlank c.toNat = false) :
    trim (ofChars cs) = ofChars cs := by
  refine strip_eq_self (fun u hu => ?_)
  rw [ofChars_eq_map (fun c hc => Nat.lt_trans (h c hc).1 (by decide)), List.mem_map] at hu
  obtain ⟨c, hc, rfl⟩ := hu
  rw [blankUnit, toNat_ofNat (Nat.lt_trans (h c hc).1 (by decide))]
  exact (h c hc).2

theorem ofString_ofList (cs : List Char) : ofString (String.ofList cs) = ofChars cs := by
  rw [ofString, String.toList_ofList]

theorem forall_ascii {P : Char → Prop} (h : ∀ n < 128, P (Char.ofNat n)) {c : Char} (hc : c.toNat < 128) : P c := by
  have := h c.toNat hc
  rwa [Char.ofNat_toNat] at this

end Text
end GlyphChain
