import GlyphChain.Glyph.Table
/-!
# Checked — tables that pass their check

The check of a table takes the values as they stand (`checked_of_ofValues`) and passes every list of between 1 and 256
texts of one code point each (`ofValues_map_text`).
-/
namespace GlyphChain
namespace Glyph

/-- A table of between 1 and 256 entries of one code point each. -/
structure Table.Checked (table : Table) : Prop where
  nonempty : 0 < table.length
  short : table.length ≤ maxLength
  single : ∀ g ∈ table, g.points.length = 1

theorem single_eq_some {v : Value} {g : Text} (h : single? v = some g) : v = .text g ∧ g.points.length = 1 := by
  unfold single? at h
  split at h
  · split at h
    · next hlen => cases h; exact ⟨rfl, hlen⟩
    · cases h
  · cases h

theorem singlesFrom_eq_ok : ∀ {vs : List Value} {table : Table} {i : Nat}, singlesFrom i vs = .ok table →
    vs = table.map .text ∧ ∀ g ∈ table, g.points.length = 1
  | [], table, i, h => by
    cases h
    exact ⟨rfl, fun g hg => by cases hg⟩
  | v :: vs, table, i, h => by
    unfold singlesFrom at h
    split at h
    · cases h
    · next g hg =>
      cases hrest : singlesFrom (i + 1) vs with
      | error e => rw [hrest] at h; cases h
      | ok rest =>
        rw [hrest] at h
        cases h
        obtain ⟨rfl, hlen⟩ := single_eq_some hg
        obtain ⟨rfl, hall⟩ := singlesFrom_eq_ok hrest
        exact ⟨rfl, List.forall_mem_cons.2 ⟨hlen, hall⟩⟩

theorem singlesFrom_map_text : ∀ {table : Table} (i : Nat), (∀ g ∈ table, g.points.length = 1) →
    singlesFrom i (table.map .text) = .ok table
  | [], _, _ => rfl
  | g :: table, i, h => by
    obtain ⟨hg, h⟩ := List.forall_mem_cons.1 h
    rw [List.map_cons, singlesFrom, single?, if_pos hg]
    simp only [singlesFrom_map_text (i + 1) h]
    rfl

/-- **A table that was read is checked, and its entries are the values as they stood.** -/
theorem Table.checked_of_ofValues {field : String} {vs : List Value} {table : Table}
    (h : Table.ofValues field vs = .ok table) : vs = table.map .text ∧ table.Checked := by
  unfold Table.ofValues at h
  split at h
  · cases h
  next hne =>
  split at h
  · cases h
  next hlen =>
  obtain ⟨rfl, hall⟩ := singlesFrom_eq_ok (mapError_eq_ok h)
  rw [List.length_map] at hlen
  refine ⟨rfl, ⟨?_, by omega, hall⟩⟩
  cases table with
  | nil => exact absurd rfl hne
  | cons g table => exact Nat.succ_pos _

/-- **The entries of a checked table are read as that table.** -/
theorem Table.ofValues_map_text {table : Table} (h : table.Checked) (field : String) :
    Table.ofValues field (table.map .text) = .ok table := by
  have hne : (table.map .text : List Value).isEmpty = false := by
    cases table with
    | nil => exact absurd h.nonempty (Nat.lt_irrefl 0)
    | cons g table => rfl
  have hlen : ¬ maxLength < (table.map .text : List Value).length := by
    rw [List.length_map]
    exact Nat.not_lt.2 h.short
  rw [Table.ofValues, if_neg (by rw [hne]; exact Bool.false_ne_true), if_neg hlen, singlesFrom_map_text 0 h.single]
  rfl

theorem Table.checked_standard : Table.standard.Checked := ⟨by decide, by decide, by decide⟩

end Glyph
end GlyphChain
