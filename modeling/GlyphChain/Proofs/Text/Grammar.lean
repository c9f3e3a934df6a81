import GlyphChain.Proofs.Text.Numeral
import Mathlib.Data.List.Basic
import Mathlib.Data.List.Induction
import Mathlib.Data.List.TakeWhile
import Mathlib.Data.Nat.Digits.Defs
/-!
# Grammar — blanks around a text, and runs of digits

`Trimmed` says what trimming leaves without saying how: the text less blanks before and after it, with no blank at
either end (`trimmed_iff`).  The digits are the characters of two ranges of letters and one of figures, each worth its
place among the sixteen symbols, and a run of them is read as its positional value (`read?_eq_some_iff`).
-/
namespace GlyphChain

namespace Text

section
variable {α : Type} {blank : α → Bool}

/-- What is left of a list without the blanks around it. -/
structure Trimmed (blank : α → Bool) (xs raw : List α) : Prop where
  around : ∃ before after, xs = before ++ raw ++ after ∧ (∀ x ∈ before, blank x = true) ∧ ∀ x ∈ after, blank x = true
  first : ∀ x, raw.head? = some x → blank x = false
  last : ∀ x, raw.getLast? = some x → blank x = false

theorem head?_dropWhile {xs : List α} {x : α} (h : (xs.dropWhile blank).head? = some x) : blank x = false := by
  have := List.head?_dropWhile_not blank xs
  rw [h] at this
  simpa using this

theorem Trimmed.strip_eq {xs raw : List α} (h : Trimmed blank xs raw) : strip blank xs = raw := by
  obtain ⟨before, after, rfl, hbefore, hafter⟩ := h.around
  have hlast : raw.reverse.dropWhile blank = raw.reverse :=
    dropWhile_eq_self (fun x hx => h.last x (by rwa [List.head?_reverse] at hx))
  unfold strip
  rw [List.append_assoc, List.dropWhile_append_of_pos hbefore]
  by_cases hraw : raw = []
  · -- nothing but blanks
    have hall : after.dropWhile blank = [] := List.dropWhile_eq_nil_iff.2 hafter
    rw [hraw, List.nil_append, hall]
    rfl
  · have hstart : (raw ++ after).dropWhile blank = raw ++ after := by
      refine dropWhile_eq_self (fun x hx => h.first x ?_)
      rwa [List.head?_append_of_ne_nil _ hraw] at hx
    rw [hstart, List.reverse_append, List.dropWhile_append_of_pos (fun x hx => hafter x (List.mem_reverse.1 hx)), hlast,
      List.reverse_reverse]

theorem trimmed_strip (blank : α → Bool) (xs : List α) : Trimmed blank xs (strip blank xs) := by
  have hfront : xs = xs.takeWhile blank ++ xs.dropWhile blank := List.takeWhile_append_dropWhile.symm
  have hback : xs.dropWhile blank = strip blank xs ++ ((xs.dropWhile blank).reverse.takeWhile blank).reverse := by
    rw [strip, ← List.reverse_append, List.takeWhile_append_dropWhile, List.reverse_reverse]
  refine ⟨⟨xs.takeWhile blank, ((xs.dropWhile blank).reverse.takeWhile blank).reverse, ?_, ?_, ?_⟩, ?_, ?_⟩
  · rw [List.append_assoc, ← hback]
    exact hfront
  · exact fun x hx => List.mem_takeWhile_imp hx
  · exact fun x hx => List.mem_takeWhile_imp (List.mem_reverse.1 hx)
  · intro x hx
    have hhead : (xs.dropWhile blank).head? = some x := by rw [hback, List.head?_append, hx, Option.some_or]
    exact head?_dropWhile hhead
  · intro x hx
    rw [strip, List.getLast?_reverse] at hx
    exact head?_dropWhile hx

/-- **Trimming leaves the one list that stands between blanks and has no blank at either end.** -/
theorem trimmed_iff {xs raw : List α} : Trimmed blank xs raw ↔ strip blank xs = raw :=
  ⟨Trimmed.strip_eq, fun h => h ▸ trimmed_strip blank xs⟩

end

end Text

namespace Digits

/-- The characters `[0-9]`. -/
def IsDecimal (c : Char) : Prop := '0' ≤ c ∧ c ≤ '9'

/-- The characters `[0-9a-fA-F]`. -/
def IsHex (c : Char) : Prop := IsDecimal c ∨ 'a' ≤ c ∧ c ≤ 'f' ∨ 'A' ≤ c ∧ c ≤ 'F'

instance : DecidablePred IsDecimal := fun _ => inferInstanceAs (Decidable (_ ∧ _))

instance : DecidablePred IsHex := fun _ => inferInstanceAs (Decidable (_ ∨ _ ∨ _))

/-- The place of a character among the sixteen symbols, its case aside. -/
def worth (c : Char) : Nat := "0123456789abcdef".toList.idxOf c.toLower

/-- The positional value of a run of digits, most significant first. -/
def positional (base : Nat) (cs : List Char) : Nat := Nat.ofDigits base (cs.map worth).reverse

theorem toNat_lt_of_isHex {c : Char} (h : IsHex c) : c.toNat < 128 := by
  rcases h with h | h | h
  · exact Nat.lt_of_le_of_lt (show c.toNat ≤ 57 from h.2) (by decide)
  · exact Nat.lt_of_le_of_lt (show c.toNat ≤ 102 from h.2) (by decide)
  · exact Nat.lt_of_le_of_lt (show c.toNat ≤ 70 from h.2) (by decide)

theorem ofSymbol?_eq_none {c : Char} (h : ¬ IsHex c) : ofSymbol? c = none := by
  have h0 : ¬ ('0' ≤ c ∧ c ≤ '9') := fun hc => h (.inl hc)
  have ha : ¬ ('a' ≤ c ∧ c ≤ 'f') := fun hc => h (.inr (.inl hc))
  have hA : ¬ ('A' ≤ c ∧ c ≤ 'F') := fun hc => h (.inr (.inr hc))
  rw [ofSymbol?, if_neg h0, if_neg ha, if_neg hA]

theorem digit?_ten (c : Char) : digit? 10 c = if IsDecimal c then some (worth c) else none := by
  by_cases hc : IsHex c
  · refine Text.forall_ascii (P := fun c => digit? 10 c = if IsDecimal c then some (worth c) else none) ?_
      (toNat_lt_of_isHex hc)
    decide +kernel
  · rw [digit?, ofSymbol?_eq_none hc, if_neg (fun hd => hc (.inl hd))]
    rfl

theorem digit?_sixteen (c : Char) : digit? 16 c = if IsHex c then some (worth c) else none := by
  by_cases hc : IsHex c
  · refine Text.forall_ascii (P := fun c => digit? 16 c = if IsHex c then some (worth c) else none) ?_
      (toNat_lt_of_isHex hc)
    decide +kernel
  · rw [digit?, ofSymbol?_eq_none hc, if_neg hc]
    rfl

theorem value_eq_ofDigits (base : Nat) (ds : List Nat) : value base ds = Nat.ofDigits base ds.reverse := by
  induction ds using List.reverseRecOn with
  | nil => rfl
  | append_singleton ds d ih =>
    rw [value_append, ih, List.reverse_append, List.reverse_singleton, List.singleton_append, Nat.ofDigits_cons,
      Nat.mul_comm, Nat.add_comm]

section
variable {base : Nat} {IsDigit : Char → Prop} [DecidablePred IsDigit]

theorem mapM_digit?_eq_some_iff (h : ∀ c, digit? base c = if IsDigit c then some (worth c) else none) :
    ∀ (cs : List Char) (ds : List Nat),
      cs.mapM (digit? base) = some ds ↔ (∀ c ∈ cs, IsDigit c) ∧ ds = cs.map worth
  | [], ds => by simp [eq_comm]
  | c :: cs, ds => by
    have ih := mapM_digit?_eq_some_iff h cs
    rw [List.mapM_cons, h c]
    by_cases hc : IsDigit c
    · rw [if_pos hc, List.forall_mem_cons, List.map_cons]
      simp only [Option.bind_eq_bind, Option.bind_some, Option.bind_eq_some_iff, ih, Option.pure_def, Option.some.injEq]
      constructor
      · rintro ⟨rest, ⟨hall, rfl⟩, rfl⟩
        exact ⟨⟨hc, hall⟩, rfl⟩
      · rintro ⟨⟨-, hall⟩, rfl⟩
        exact ⟨_, ⟨hall, rfl⟩, rfl⟩
    · simp [hc]

/-- **A run of digits is read as its positional value, and nothing else is read.** -/
theorem read?_eq_some_iff (h : ∀ c, digit? base c = if IsDigit c then some (worth c) else none) (cs : List Char)
    (n : Nat) : read? base cs = some n ↔ cs ≠ [] ∧ (∀ c ∈ cs, IsDigit c) ∧ n = positional base cs := by
  unfold read?
  by_cases hcs : cs = []
  · simp [hcs]
  · rw [if_neg (by simpa using hcs), Option.map_eq_some_iff]
    constructor
    · rintro ⟨ds, hds, rfl⟩
      obtain ⟨hall, rfl⟩ := (mapM_digit?_eq_some_iff h cs ds).1 hds
      exact ⟨hcs, hall, value_eq_ofDigits base _⟩
    · rintro ⟨-, hall, rfl⟩
      exact ⟨cs.map worth, (mapM_digit?_eq_some_iff h cs _).2 ⟨hall, rfl⟩, value_eq_ofDigits base _⟩

end

end Digits
end GlyphChain
