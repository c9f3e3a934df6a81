import GlyphChain.Glyph.Render
import GlyphChain.Proofs.Glyph.Checked
import GlyphChain.Proofs.Text.Points
import Mathlib.Data.List.Forall2
/-!
# Printing — one glyph for each byte, one code point for each glyph

Every byte is below the length of a table or not, so looking it up gives an entry or the sentinel and never nothing
(`Table.lookup_byte`).  The glyphs of a checked table have one code point each, also when capitals are lowered, so a
line has one code point for each byte that is not zero, and a line end, but that two glyphs which meet make one
(`Table.Checked.length_points_line`).  For such glyphs the order of texts is that of their first units, so lowering them
one by one lowers the capitals of the alphabet in the line and nothing else (`Table.Checked.line_lower`).
-/
namespace GlyphChain

namespace Text

/-- A unit with the capitals from `A` to `Z` lowered. -/
def lowerUnit (u : UInt16) : UInt16 := if 0x41 ≤ u ∧ u ≤ 0x5A then u + 0x20 else u

theorem lowerCase_eq_lowerUnit {u : UInt16} (hA : 0x41 ≤ u) (hZ : u ≤ 0x5A) : lowerCase [u] = [lowerUnit u] := by
  have hlt : u.toNat < 0x5B := Nat.lt_succ_of_le hZ
  have hall : ∀ n < 0x5B, 0x41 ≤ n → lowerCase [UInt16.ofNat n] = [lowerUnit (UInt16.ofNat n)] := by decide +kernel
  have := hall u.toNat hlt hA
  rwa [UInt16.ofNat_toNat] at this

theorem lowerUnit_lowerUnit (u : UInt16) : lowerUnit (lowerUnit u) = lowerUnit u := by
  by_cases h : 0x41 ≤ u ∧ u ≤ 0x5A
  · have hall : ∀ n < 0x5B, lowerUnit (lowerUnit (UInt16.ofNat n)) = lowerUnit (UInt16.ofNat n) := by decide +kernel
    have := hall u.toNat (Nat.lt_succ_of_le h.2)
    rwa [UInt16.ofNat_toNat] at this
  · have hself : lowerUnit u = u := if_neg h
    rw [hself, hself]

/-- Half of a pair is no capital. -/
theorem lowerUnit_eq_self {u : UInt16} (h : 0x5A < u.toNat) : lowerUnit u = u :=
  if_neg fun hu => Nat.not_le.2 h hu.2

end Text

namespace Glyph

/-- The bytes of a list of words that are not zero, in order. -/
def nonzeroBytes (words : List Word) : List UInt8 := (words.flatMap Word.toBytes).filter (· != 0)

theorem nonzeroBytes_eq (words : List Word) : nonzeroBytes words = words.flatMap printed := List.filter_flatMap

namespace Table

def shown (table : Table) (lower : Bool) (b : UInt8) : Text :=
  if lower then lowered (table.glyph b) else table.glyph b

/-- **A byte is looked up as an entry or as the sentinel.** -/
theorem lookup_byte (table : Table) (b : UInt8) :
    (∃ g ∈ table, table[b.toNat]? = some g ∧ table.lookup (.ofInt b.toNat) = some g) ∨
      table.length ≤ b.toNat ∧ table.lookup (.ofInt b.toNat) = some sentinel := by
  unfold lookup
  rw [Number.below_ofInt, Number.toInt?_ofInt]
  by_cases hb : b.toNat < table.length
  · have hentry : table[b.toNat]? = some table[b.toNat] := List.getElem?_eq_getElem hb
    rw [if_pos (by simpa using hb)]
    exact .inl ⟨table[b.toNat], List.getElem_mem hb, hentry, hentry⟩
  · rw [if_neg (by simpa using hb)]
    exact .inr ⟨Nat.le_of_not_lt hb, rfl⟩

theorem lookup_eq_glyph (table : Table) (b : UInt8) : table.lookup (.ofInt b.toNat) = some (table.glyph b) := by
  unfold glyph
  rcases table.lookup_byte b with ⟨g, -, hentry, hlookup⟩ | ⟨hpast, hlookup⟩
  · rw [hlookup, hentry]
    rfl
  · rw [hlookup, List.getElem?_eq_none hpast]
    rfl

theorem render_eq (table : Table) (lower : Bool) (words : List Word) :
    table.render lower words = (nonzeroBytes words).map (table.shown lower) := by
  rw [nonzeroBytes_eq, List.map_flatMap]
  rfl

theorem length_render (table : Table) (lower : Bool) (words : List Word) :
    (table.render lower words).length = (nonzeroBytes words).length := by
  rw [table.render_eq, List.length_map]

/-- **Looking up the bytes of words gives their glyphs, and nothing nowhere.** -/
theorem lookups_eq (table : Table) (lower : Bool) (words : List Word) :
    table.lookups lower words = (table.render lower words).map some := by
  have hstep : (fun b : UInt8 => (table.lookup (.ofInt b.toNat)).map fun g => if lower then lowered g else g) =
      fun b => some (table.shown lower b) := by
    funext b
    rw [table.lookup_eq_glyph]
    rfl
  rw [lookups, hstep, render, List.map_flatMap]
  simp only [List.map_map]
  rfl

theorem lookupLine_eq (table : Table) (lower : Bool) (words : List Word) :
    table.lookupLine lower words = table.line lower words := by
  have hsome : ((fun g : Option Text => g.getD []) ∘ some) = id := rfl
  rw [lookupLine, table.lookups_eq, List.map_map, hsome, List.map_id, line]

/-! ## Glyphs of one code point -/

theorem singleton_le_iff {a u : UInt16} : ([a] : Text) ≤ [u] ↔ a ≤ u := by
  rw [← List.not_lt, List.cons_lt_cons_iff, ← UInt16.not_lt]
  simp

theorem isCapital_singleton (u : UInt16) : isCapital [u] = true ↔ 0x41 ≤ u ∧ u ≤ 0x5A := by
  have hA : Text.ofString "A" = [0x41] := by decide
  have hZ : Text.ofString "Z" = [0x5A] := by decide
  rw [isCapital, hA, hZ, Bool.and_eq_true, decide_eq_true_iff, decide_eq_true_iff, singleton_le_iff, singleton_le_iff]

theorem not_isCapital_pair {u v : UInt16} (h : 0x5A < u) : ¬ isCapital [u, v] = true := by
  have hZ : Text.ofString "Z" = [0x5A] := by decide
  have hlt : ([0x5A] : Text) < [u, v] := List.cons_lt_cons_iff.2 (.inl h)
  rw [isCapital, hZ, Bool.and_eq_true, decide_eq_true_iff, decide_eq_true_iff]
  exact fun hle => List.not_lt.2 hle.2 hlt

/-- **A glyph of one code point is lowered unit by unit**, and it is still one code point. -/
theorem lowered_single {g : Text} (h : g.points.length = 1) :
    lowered g = g.map Text.lowerUnit ∧ (lowered g).points.length = 1 := by
  unfold lowered
  obtain ⟨u, rfl⟩ | ⟨u, v, rfl, hu, hv⟩ := Text.single_cases h
  · have hlower : (if isCapital [u] then Text.lowerCase [u] else [u]) = [Text.lowerUnit u] := by
      by_cases hcap : 0x41 ≤ u ∧ u ≤ 0x5A
      · rw [if_pos ((isCapital_singleton u).2 hcap), Text.lowerCase_eq_lowerUnit hcap.1 hcap.2]
      · rw [if_neg ((isCapital_singleton u).not.2 hcap), Text.lowerUnit, if_neg hcap]
    rw [hlower]
    exact ⟨rfl, rfl⟩
  · have hu' := Text.isHigh_iff.1 hu
    have hv' := Text.isLow_iff.1 hv
    have hpast : 0x5A < u := UInt16.lt_iff_toNat_lt.2 (Nat.lt_of_lt_of_le (by decide) hu'.1)
    rw [if_neg (not_isCapital_pair hpast)]
    refine ⟨?_, h⟩
    rw [List.map_cons, List.map_singleton, Text.lowerUnit_eq_self (Nat.lt_of_lt_of_le (by decide) hu'.1),
      Text.lowerUnit_eq_self (Nat.lt_of_lt_of_le (by decide) hv'.1)]

variable {table : Table}

theorem Checked.glyph_single (h : table.Checked) (b : UInt8) : (table.glyph b).points.length = 1 := by
  have hlookup := table.lookup_eq_glyph b
  rcases table.lookup_byte b with ⟨g, hmem, -, hg⟩ | ⟨-, hg⟩
  · rw [hlookup, Option.some.injEq] at hg
    rw [hg]
    exact h.single g hmem
  · rw [hlookup, Option.some.injEq] at hg
    rw [hg]
    rfl

theorem Checked.shown_single (h : table.Checked) (lower : Bool) (b : UInt8) :
    (table.shown lower b).points.length = 1 := by
  unfold shown
  cases lower with
  | true => exact (lowered_single (h.glyph_single b)).2
  | false => exact h.glyph_single b

theorem Checked.render_single (h : table.Checked) (lower : Bool) (words : List Word) :
    ∀ g ∈ table.render lower words, g.points.length = 1 := by
  intro g hg
  rw [table.render_eq] at hg
  obtain ⟨b, -, rfl⟩ := List.mem_map.1 hg
  exact h.shown_single lower b

/-- **A line of a checked table has one code point for each byte that is not zero, and a line end**, but that two
neighbouring glyphs make one code point where they meet. -/
theorem Checked.length_points_line (h : table.Checked) (lower : Bool) (words : List Word) :
    (table.line lower words).points.length + Text.meetings (table.render lower words) =
      (nonzeroBytes words).length + 1 := by
  have hend : ¬ Text.Meets (table.render lower words).flatten "\n" := fun hm => absurd hm.2 (by decide)
  have hglyphs := Text.length_points_flatten (h.render_single lower words)
  have hnewline : (Text.points "\n").length = 1 := by decide
  rw [table.length_render] at hglyphs
  rw [line, Text.points_append hend, List.length_append, hnewline]
  omega

theorem Checked.shown_lower (h : table.Checked) (b : UInt8) :
    table.shown true b = (table.shown false b).map Text.lowerUnit :=
  (lowered_single (h.glyph_single b)).1

/-- **Lowering the glyphs of a checked table lowers the capitals from `A` to `Z` in the line**, and changes nothing
else. -/
theorem Checked.line_lower (h : table.Checked) (words : List Word) :
    table.line true words = (table.line false words).map Text.lowerUnit := by
  have hend : Text.ofString "\n" = (Text.ofString "\n").map Text.lowerUnit := by decide
  have hglyphs : table.render true words = (table.render false words).map (List.map Text.lowerUnit) := by
    rw [table.render_eq, table.render_eq, List.map_map]
    exact List.map_congr_left fun b _ => h.shown_lower b
  rw [line, line, hglyphs, List.map_append, List.map_flatten, ← hend]

/-- **Lowering a line a second time changes nothing.** -/
theorem Checked.line_map_lowerUnit (h : table.Checked) (words : List Word) :
    (table.line true words).map Text.lowerUnit = table.line true words := by
  have hlower : (Text.lowerUnit ∘ Text.lowerUnit) = Text.lowerUnit := funext Text.lowerUnit_lowerUnit
  rw [h.line_lower, List.map_map, hlower]

end Table
end Glyph
end GlyphChain
