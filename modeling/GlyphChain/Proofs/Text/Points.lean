import GlyphChain.Text.Units
import Mathlib.Data.List.Chain
/-!
# Points — the code points of texts joined end to end

The code points of a text, put one after the other, are the text (`flatten_points`).  Two texts that are joined keep
their code points but where they meet, a high surrogate at the end of the first and a low one at the beginning of the
second: there two code points become one (`points_append`, `length_points_append`).  So texts of one code point each have
together as many code points as there are texts, less one for each two neighbours that meet (`length_points_flatten`).
Characters never meet: a text of characters has one code point for each of them (`points_ofChars`).
-/
namespace GlyphChain
namespace Text

/-- Two texts whose ends make a pair when they are joined. -/
def Meets (s t : Text) : Prop := s.getLast?.any isHigh = true ∧ t.head?.any isLow = true

instance (s t : Text) : Decidable (Meets s t) := inferInstanceAs (Decidable (_ ∧ _))

theorem isHigh_iff {u : UInt16} : isHigh u = true ↔ 0xD800 ≤ u.toNat ∧ u.toNat < 0xDC00 := by
  simp [isHigh, UInt16.le_iff_toNat_le, UInt16.lt_iff_toNat_lt]

theorem isLow_iff {u : UInt16} : isLow u = true ↔ 0xDC00 ≤ u.toNat ∧ u.toNat < 0xE000 := by
  simp [isLow, UInt16.le_iff_toNat_le, UInt16.lt_iff_toNat_lt]

theorem not_isLow_of_isHigh {u : UInt16} (h : isHigh u = true) : ¬ isLow u = true := by
  rw [isHigh_iff] at h
  rw [isLow_iff]
  omega

/-! ## Texts joined end to end -/

theorem flatten_points : ∀ t : Text, (points t).flatten = t
  | [] => rfl
  | [_] => rfl
  | u :: v :: rest => by
    rw [points]
    split
    · rw [List.flatten_cons, flatten_points rest]
      rfl
    · rw [List.flatten_cons, flatten_points (v :: rest)]
      rfl

/-- **A text of one code point is that code point.** -/
theorem points_eq_singleton {g : Text} (h : (points g).length = 1) : points g = [g] := by
  obtain ⟨p, hp⟩ := List.length_eq_one_iff.1 h
  have hflat := flatten_points g
  rw [hp, List.flatten_singleton] at hflat
  rw [hp, hflat]

theorem ne_nil_of_single {g : Text} (h : (points g).length = 1) : g ≠ [] := by
  rintro rfl
  cases h

theorem single_cases {g : Text} (h : (points g).length = 1) :
    (∃ u, g = [u]) ∨ ∃ u v, g = [u, v] ∧ isHigh u = true ∧ isLow v = true := by
  have hg := points_eq_singleton h
  match g with
  | [] => cases h
  | [u] => exact .inl ⟨u, rfl⟩
  | u :: v :: rest =>
    rw [points] at hg
    split at hg
    · next hpair =>
      rw [List.cons.injEq, List.cons.injEq, List.cons.injEq] at hg
      rw [Bool.and_eq_true] at hpair
      rw [← hg.1.2.2]
      exact .inr ⟨u, v, rfl, hpair⟩
    · rw [List.cons.injEq, List.cons.injEq] at hg
      cases hg.1.2

theorem points_cons_of_not_isHigh {u : UInt16} (h : ¬ isHigh u = true) (t : Text) :
    points (u :: t) = [u] :: points t := by
  cases t with
  | nil => rfl
  | cons v rest => simp only [points, h, Bool.false_and, Bool.false_eq_true, if_false]

theorem meets_cons {s : Text} (hs : s ≠ []) (u : UInt16) (t : Text) : Meets (u :: s) t ↔ Meets s t := by
  rw [Meets, Meets, List.getLast?_cons_of_ne_nil hs]

/-- **Texts that do not meet keep their code points.** -/
theorem points_append : ∀ {s t : Text}, ¬ Meets s t → points (s ++ t) = points s ++ points t
  | [], _, _ => rfl
  | [u], [], _ => rfl
  | [u], v :: t, h => by
    have hpair : ¬ (isHigh u && isLow v) = true := by
      rw [Bool.and_eq_true]
      exact h
    show points (u :: v :: t) = [u] :: points (v :: t)
    rw [points, if_neg hpair]
  | u :: v :: rest, t, h => by
    rw [List.cons_append, List.cons_append, points, points]
    by_cases hpair : (isHigh u && isLow v) = true
    · rw [if_pos hpair, if_pos hpair, List.cons_append]
      by_cases hrest : rest = []
      · rw [hrest]
        rfl
      · have hmeets : ¬ Meets rest t := by
          rwa [meets_cons (by simp), meets_cons hrest] at h
        rw [points_append hmeets]
    · rw [if_neg hpair, if_neg hpair, List.cons_append, ← List.cons_append]
      rw [meets_cons (by simp)] at h
      rw [points_append h]

/-- **What joining does to the number of code points**: it takes one away where the texts meet. -/
theorem length_points_append (s t : Text) :
    (points (s ++ t)).length + (if Meets s t then 1 else 0) = (points s).length + (points t).length := by
  by_cases h : Meets s t
  · obtain ⟨u, hlast, hu⟩ := (Option.any_eq_true _ _).1 h.1
    obtain ⟨v, hhead, hv⟩ := (Option.any_eq_true _ _).1 h.2
    obtain ⟨s', rfl⟩ := List.getLast?_eq_some_iff.1 hlast
    obtain ⟨t', rfl⟩ := List.head?_eq_some_iff.1 hhead
    -- the first surrogate is no end of a pair and the second no beginning, so both stood alone
    have hbefore : ∀ rest, ¬ Meets s' (u :: rest) := fun rest hm => not_isLow_of_isHigh hu hm.2
    have hhigh : ¬ isHigh v = true := fun hh => not_isLow_of_isHigh hh hv
    have hpair : points (u :: v :: t') = [u, v] :: points t' := by simp only [points, hu, hv, Bool.and_self, if_true]
    rw [if_pos h, List.append_assoc, List.singleton_append, points_append (hbefore _), points_append (hbefore _), hpair,
      points_cons_of_not_isHigh hhigh]
    simp only [points, List.length_append, List.length_cons, List.length_nil]
    omega
  · rw [if_neg h, points_append h, List.length_append]
    rfl

/-- How many texts of a list meet the next one. -/
def meetings : List Text → Nat
  | g :: h :: rest => (if Meets g h then 1 else 0) + meetings (h :: rest)
  | _ => 0

theorem meets_flatten {h : Text} (hh : h ≠ []) (g : Text) (rest : List Text) :
    Meets g (h :: rest).flatten ↔ Meets g h := by
  rw [Meets, Meets, List.flatten_cons, List.head?_append_of_ne_nil _ hh]

/-- **Texts of one code point each, joined**, have a code point for each text but those that meet the next one. -/
theorem length_points_flatten : ∀ {gs : List Text}, (∀ g ∈ gs, (points g).length = 1) →
    (points gs.flatten).length + meetings gs = gs.length
  | [], _ => rfl
  | [g], h => by
    rw [List.flatten_singleton]
    exact h g List.mem_cons_self
  | g :: h :: rest, hs => by
    obtain ⟨hg, hs⟩ := List.forall_mem_cons.1 hs
    have ih := length_points_flatten hs
    have happend := length_points_append g (h :: rest).flatten
    have hne : h ≠ [] := ne_nil_of_single (hs h List.mem_cons_self)
    simp only [meets_flatten hne] at happend
    rw [List.flatten_cons, meetings, List.length_cons]
    omega

theorem meetings_eq_zero_iff : ∀ {gs : List Text}, meetings gs = 0 ↔ gs.IsChain fun g h => ¬ Meets g h
  | [] => by simp [meetings]
  | [g] => by simp [meetings]
  | g :: h :: rest => by
    rw [meetings, List.isChain_cons_cons, ← meetings_eq_zero_iff, Nat.add_eq_zero_iff]
    by_cases hm : Meets g h <;> simp [hm]

/-- **Texts of one code point each of which no two neighbours meet** are the code points of the text they make. -/
theorem points_flatten : ∀ {gs : List Text}, (∀ g ∈ gs, (points g).length = 1) →
    gs.IsChain (fun g h => ¬ Meets g h) → points gs.flatten = gs
  | [], _, _ => rfl
  | [g], h, _ => by
    rw [List.flatten_singleton]
    exact points_eq_singleton (h g List.mem_cons_self)
  | g :: h :: rest, hs, hchain => by
    obtain ⟨hg, hs⟩ := List.forall_mem_cons.1 hs
    obtain ⟨hmeet, hchain⟩ := List.isChain_cons_cons.1 hchain
    have hne : h ≠ [] := ne_nil_of_single (hs h List.mem_cons_self)
    rw [List.flatten_cons, points_append (by rwa [meets_flatten hne]), points_flatten hs hchain, points_eq_singleton hg]
    rfl

/-! ## Texts of characters -/

theorem toNat_ofNat {n : Nat} (h : n < 0x10000) : (UInt16.ofNat n).toNat = n := by
  rw [UInt16.toNat_ofNat', Nat.mod_eq_of_lt h]

/-- The forms of a character: one unit that is half of no pair, or a pair. -/
theorem ofCode_cases (c : Char) :
    (∃ u : UInt16, ofCode c.toNat = [u] ∧ u.toNat = c.toNat ∧ ¬ isHigh u = true) ∨
    ∃ u v : UInt16, ofCode c.toNat = [u, v] ∧ isHigh u = true ∧ isLow v = true ∧
      c.toNat = 0x10000 + (u.toNat - 0xD800) * 0x400 + (v.toNat - 0xDC00) := by
  have hvalid : c.toNat < 0xD800 ∨ 0xDFFF < c.toNat ∧ c.toNat < 0x110000 := c.valid
  by_cases h : c.toNat < 0x10000
  · refine .inl ⟨_, if_pos h, toNat_ofNat h, ?_⟩
    rw [isHigh_iff, toNat_ofNat h]
    omega
  · have hu : (UInt16.ofNat (0xD800 + (c.toNat - 0x10000) / 0x400)).toNat = 0xD800 + (c.toNat - 0x10000) / 0x400 :=
      toNat_ofNat (by omega)
    have hv : (UInt16.ofNat (0xDC00 + (c.toNat - 0x10000) % 0x400)).toNat = 0xDC00 + (c.toNat - 0x10000) % 0x400 :=
      toNat_ofNat (by omega)
    refine .inr ⟨_, _, if_neg h, ?_, ?_, ?_⟩
    · rw [isHigh_iff, hu]
      omega
    · rw [isLow_iff, hv]
      omega
    · rw [hu, hv]
      omega

theorem code_ofCode (c : Char) : code (ofCode c.toNat) = c.toNat := by
  obtain ⟨u, hc, hu, -⟩ | ⟨u, v, hc, -, -, hnat⟩ := ofCode_cases c
  · rw [hc]
    exact hu
  · rw [hc]
    exact hnat.symm

/-- **A character is one code point.** -/
theorem points_ofCode (c : Char) : points (ofCode c.toNat) = [ofCode c.toNat] := by
  obtain ⟨u, hc, -, -⟩ | ⟨u, v, hc, hu, hv, -⟩ := ofCode_cases c
  · rw [hc]
    rfl
  · rw [hc]
    simp only [points, hu, hv, Bool.and_self, if_true]

theorem not_meets_ofCode (c : Char) (t : Text) : ¬ Meets (ofCode c.toNat) t := by
  rintro ⟨hlast, -⟩
  obtain ⟨u, hc, -, hu⟩ | ⟨u, v, hc, -, hv, -⟩ := ofCode_cases c
  · rw [hc] at hlast
    exact hu hlast
  · rw [hc] at hlast
    exact not_isLow_of_isHigh hlast hv

/-- **The code points of a text of characters are the characters.** -/
theorem points_ofChars : ∀ cs : List Char, points (ofChars cs) = cs.map fun c => ofCode c.toNat
  | [] => rfl
  | c :: cs => by
    rw [ofChars, List.flatMap_cons, points_append (not_meets_ofCode c _), points_ofCode, List.map_cons,
      ← points_ofChars cs]
    rfl

theorem ofString_append (s t : String) : ofString (s ++ t) = ofString s ++ ofString t := by
  rw [ofString, String.toList_append]
  exact List.flatMap_append

theorem ofString_injective {s t : String} (h : ofString s = ofString t) : s = t := by
  have hcode : (code ∘ fun c : Char => ofCode c.toNat) = Char.toNat := funext code_ofCode
  have hpoints := congrArg (fun t => (points t).map code) h
  simp only [ofString, points_ofChars, List.map_map, hcode] at hpoints
  exact String.toList_inj.1 (List.map_injective_iff.2 (fun a b => Char.toNat_inj.1) hpoints)

theorem ofChars_eq_map : ∀ {cs : List Char}, (∀ c ∈ cs, c.toNat < 0x10000) →
    ofChars cs = cs.map fun c => UInt16.ofNat c.toNat
  | [], _ => rfl
  | c :: cs, h => by
    obtain ⟨hc, h⟩ := List.forall_mem_cons.1 h
    rw [ofChars, List.flatMap_cons, ofCode, if_pos hc, List.singleton_append, List.map_cons, ← ofChars_eq_map h]
    rfl

/-- **Characters of one unit each come back from their text.** -/
theorem chars_ofChars {cs : List Char} (h : ∀ c ∈ cs, c.toNat < 0x10000) : chars (ofChars cs) = cs := by
  have hback : ∀ c ∈ cs, Char.ofNat (UInt16.ofNat c.toNat).toNat = c := by
    intro c hc
    rw [toNat_ofNat (h c hc), Char.ofNat_toNat]
  rw [ofChars_eq_map h, chars, List.map_map]
  exact (List.map_congr_left hback).trans (List.map_id' cs)

/-- **A text of which no unit is half a pair is that of its units as characters.** -/
theorem ofChars_chars : ∀ {t : Text}, (∀ c ∈ chars t, c ≠ '\x00') → ofChars (chars t) = t
  | [], _ => rfl
  | u :: t, h => by
    obtain ⟨hu, h⟩ := List.forall_mem_cons.1 h
    have hvalid : u.toNat.isValidChar := by
      by_contra hbad
      exact hu (dif_neg hbad)
    have hnat : (Char.ofNat u.toNat).toNat = u.toNat := by
      rw [Char.ofNat, dif_pos hvalid]
      rfl
    have ih := ofChars_chars h
    unfold chars ofChars at ih ⊢
    rw [List.map_cons, List.flatMap_cons, hnat, ofCode, if_pos u.toNat_lt, UInt16.ofNat_toNat, List.singleton_append, ih]

end Text
end GlyphChain
