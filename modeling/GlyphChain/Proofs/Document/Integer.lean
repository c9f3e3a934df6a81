import GlyphChain.Document.Value
import GlyphChain.Proofs.Number.Whole
import GlyphChain.Proofs.Text.Grammar
/-!
# Integer — integers as a file spells them

An integer is written as digits without a zero before another, after a minus sign if it has one.  Such a text is a
literal that keeps the value exactly, however long it is (`Integer.ofChars?_eq`); only as a double it may become another
number, and then it is none of the safe integers (`Integer.toNumber_eq_iff`).
-/
namespace GlyphChain

namespace Literal

open Digits (IsDecimal positional)

/-- The digits of a whole number: at least one, and no zero before another. -/
structure Whole (ds : List Char) : Prop where
  nonempty : ds ≠ []
  digits : ∀ c ∈ ds, IsDecimal c
  first : ds.head? = some '0' → ds = ['0']

/-- The text of an integer, and the integer. -/
inductive Integer : List Char → Int → Prop
  | plain {ds : List Char} (h : Whole ds) : Integer ds (positional 10 ds)
  | minus {ds : List Char} (h : Whole ds) : Integer ('-' :: ds) (-(positional 10 ds : Int))

theorem isDigit_eq_true {c : Char} (h : IsDecimal c) : isDigit c = true := by
  rw [isDigit, Bool.and_eq_true, decide_eq_true_eq, decide_eq_true_eq]
  exact h

namespace Whole

variable {ds : List Char}

theorem isWhole_eq (h : Whole ds) : isWhole ds = true := by
  unfold isWhole
  split
  · exact absurd rfl h.nonempty
  · rfl
  · next c rest hne =>
    rw [bne_iff_ne]
    rintro rfl
    have hzero := h.first rfl
    rw [List.cons.injEq] at hzero
    exact hne rfl hzero.2

theorem digitsValue_eq (h : Whole ds) : digitsValue ds = positional 10 ds := by
  rw [digitsValue, (Digits.read?_eq_some_iff Digits.digit?_ten ds _).2 ⟨h.nonempty, h.digits, rfl⟩]
  rfl

theorem splitSign_eq (h : Whole ds) : splitSign ds = (false, ds) := by
  unfold splitSign
  split
  · exact absurd (h.digits '-' (by simp)) (by decide)
  · rfl

end Whole

theorem ofChars?_of_splitSign {cs ds : List Char} {negative : Bool} (hsign : splitSign cs = (negative, ds))
    (h : Whole ds) : ofChars? cs = some ⟨negative, positional 10 ds, 0⟩ := by
  have hall : ∀ c ∈ ds, isDigit c = true := fun c hc => isDigit_eq_true (h.digits c hc)
  have htake : ds.takeWhile isDigit = ds := List.takeWhile_eq_self_iff.2 hall
  have hdrop : ds.dropWhile isDigit = [] := List.dropWhile_eq_nil_iff.2 hall
  unfold ofChars?
  simp only [hsign, htake, hdrop, h.isWhole_eq, if_true, splitFraction?, Option.bind_some, power?, Option.map_some,
    List.append_nil, h.digitsValue_eq, List.length_nil]
  rfl

/-- **The text of an integer is read as that integer**, whatever its length. -/
theorem Integer.ofChars?_eq {cs : List Char} {z : Int} (h : Integer cs z) :
    ∃ negative n, ofChars? cs = some ⟨negative, n, 0⟩ ∧ z = Number.signed negative n := by
  cases h with
  | plain h => exact ⟨false, _, ofChars?_of_splitSign h.splitSign_eq h, rfl⟩
  | minus h => exact ⟨true, _, ofChars?_of_splitSign rfl h, rfl⟩

/-- **As a double an integer is a safe one only if it is that one itself.** -/
theorem Integer.toNumber_eq_iff {cs : List Char} {z x : Int} {l : Literal} (h : Integer cs z) (hl : ofChars? cs = some l)
    (hx : x.natAbs ≤ Number.maxSafe) : l.toNumber = .ofInt x ↔ x = z := by
  obtain ⟨negative, n, hcs, rfl⟩ := h.ofChars?_eq
  rw [hl] at hcs
  cases hcs
  exact Number.ofDecimal_eq_ofInt_iff hx

end Literal

/-! ## Documents taken from numerals to numbers -/

namespace Doc

variable {ν μ : Type} (f : ν → μ)

theorem mapItems_eq : ∀ items : List (Doc ν), mapItems f items = items.map (map f)
  | [] => by rw [mapItems, List.map_nil]
  | d :: items => by rw [mapItems, mapItems_eq items, List.map_cons]

theorem mapFields_eq : ∀ fields : List (Text × Doc ν), mapFields f fields = fields.map fun e => (e.1, map f e.2)
  | [] => by rw [mapFields, List.map_nil]
  | (name, d) :: fields => by rw [mapFields, mapFields_eq fields, List.map_cons]

theorem field?_mapFields (fields : List (Text × Doc ν)) (name : String) :
    field? (mapFields f fields) name = (field? fields name).map (map f) := by
  have hname : ((fun e : Text × Doc μ => e.1 == Text.ofString name) ∘ fun e : Text × Doc ν => (e.1, map f e.2)) =
      fun e => e.1 == Text.ofString name := rfl
  rw [field?, field?, mapFields_eq, ← List.map_reverse, List.find?_map, hname, Option.map_map, Option.map_map]
  rfl

/-- **Of two runs of fields the later one counts.** -/
theorem field?_append (fields fields' : List (Text × Doc ν)) (name : String) :
    field? (fields ++ fields') name = (field? fields' name).or (field? fields name) := by
  unfold field?
  rw [List.reverse_append, List.find?_append, Option.map_or]

theorem field?_concat (fields : List (Text × Doc ν)) (name other : String) (d : Doc ν) :
    field? (fields ++ [(Text.ofString name, d)]) other = if name = other then some d else field? fields other := by
  rw [field?_append]
  by_cases h : name = other
  · simp [field?, h]
  · have hne : ¬ Text.ofString name = Text.ofString other := fun he => h (Text.ofString_injective he)
    simp [field?, h, beq_eq_false_iff_ne.2 hne]

end Doc
end GlyphChain
