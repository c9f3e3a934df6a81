import GlyphChain.Proofs.Glyph.Encoding
import Mathlib.Data.List.Nodup
/-!
# Readback — which words come back when their glyphs are encoded

Printing leaves zero bytes out, so what follows a zero moves up, over the ends of words too; it shows a byte past the
end of the table as the sentinel, which the table may have anywhere or not at all; and it joins the glyphs, of which two
may become one code point.  Encoding gives bytes that are in the table, and zeros only after all others or for the entry
at place zero.  So the words that come back are those that print all their bytes as entries, but for fewer than five
zeros at the very end (`Table.Legible`), and of whose glyphs no two neighbours meet (`Table.Apart`).
-/
namespace GlyphChain
namespace Glyph
namespace Table

open Word (blockBits Fits)

/-- Bytes that print as entries: none is zero, and none is past the end of the table. -/
def Shows (table : Table) (bytes : List Int) : Prop := ∀ b ∈ bytes, 0 < b ∧ b < table.length

instance (table : Table) (bytes : List Int) : Decidable (table.Shows bytes) :=
  inferInstanceAs (Decidable (∀ b ∈ bytes, _))

/-- A word of 40 bits all of whose five bytes print as entries. -/
def Full (table : Table) (w : Word) : Prop := Fits blockBits w ∧ table.Shows (lowBytes w)

/-- A word of 40 bits that ends in one to four zero bytes and whose other bytes print as entries. -/
def Short (table : Table) (w : Word) : Prop :=
  Fits blockBits w ∧ ∃ bytes k, 1 ≤ k ∧ k ≤ 4 ∧ lowBytes w = bytes ++ List.replicate k 0 ∧ table.Shows bytes

/-- Full words, of which the last may be short instead. -/
inductive Legible (table : Table) : List Word → Prop
  | nil : Legible table []
  | last {w : Word} (short : table.Short w) : Legible table [w]
  | cons {w : Word} {ws : List Word} (full : table.Full w) (rest : Legible table ws) : Legible table (w :: ws)

/-- Words of whose glyphs no two neighbours meet. -/
def Apart (table : Table) (ws : List Word) : Prop := (table.render false ws).IsChain fun g h => ¬ Text.Meets g h

instance (table : Table) (ws : List Word) : Decidable (table.Apart ws) :=
  inferInstanceAs (Decidable (List.IsChain _ _))

variable {table : Table}

/-! ## The bytes of legible words -/

theorem length_flatMap_lowBytes : ∀ ws : List Word, (ws.flatMap lowBytes).length = 5 * ws.length
  | [] => rfl
  | w :: ws => by
    have hword : (lowBytes w).length = 5 := rfl
    rw [List.flatMap_cons, List.length_append, hword, length_flatMap_lowBytes ws, List.length_cons]
    omega

theorem bytes_of_legible {ws : List Word} (h : table.Legible ws) : (∀ w ∈ ws, Fits blockBits w) ∧
    ∃ bytes k, k < 5 ∧ ws.flatMap lowBytes = bytes ++ List.replicate k 0 ∧ table.Shows bytes := by
  induction h with
  | nil => exact ⟨by simp, [], 0, by omega, rfl, by simp [Shows]⟩
  | last short =>
    obtain ⟨hfits, bytes, k, -, hk, hbytes, hshows⟩ := short
    refine ⟨fun x hx => List.mem_singleton.1 hx ▸ hfits, bytes, k, by omega, ?_, hshows⟩
    rw [List.flatMap_singleton, hbytes]
  | cons full _ ih =>
    obtain ⟨hws, bytes, k, hk, hbytes, hshows⟩ := ih
    refine ⟨List.forall_mem_cons.2 ⟨full.1, hws⟩, _ ++ bytes, k, hk, ?_, List.forall_mem_append.2 ⟨full.2, hshows⟩⟩
    rw [List.flatMap_cons, hbytes, List.append_assoc]

theorem legible_of_bytes : ∀ {ws : List Word} {bytes : List Int} {k : Nat}, (∀ w ∈ ws, Fits blockBits w) → k < 5 →
    ws.flatMap lowBytes = bytes ++ List.replicate k 0 → table.Shows bytes → table.Legible ws
  | [], _, _, _, _, _, _ => .nil
  | [w], bytes, k, hfits, hk, hbytes, hshows => by
    have hw : Fits blockBits w := hfits w List.mem_cons_self
    rw [List.flatMap_singleton] at hbytes
    by_cases hzero : k = 0
    · rw [hzero, List.replicate_zero, List.append_nil] at hbytes
      exact .cons ⟨hw, hbytes ▸ hshows⟩ .nil
    · exact .last ⟨hw, bytes, k, by omega, by omega, hbytes, hshows⟩
  | w :: v :: ws, bytes, k, hfits, hk, hbytes, hshows => by
    obtain ⟨hw, hws⟩ := List.forall_mem_cons.1 hfits
    -- the zeros are fewer than the bytes of one word, so with a word to come none of them is in the first
    have hlong : 5 ≤ bytes.length := by
      have hlen := length_flatMap_lowBytes (w :: v :: ws)
      rw [hbytes, List.length_append, List.length_replicate, List.length_cons, List.length_cons] at hlen
      omega
    have hsplit : bytes = bytes.take 5 ++ bytes.drop 5 := (List.take_append_drop 5 bytes).symm
    have hsame : (lowBytes w).length = (bytes.take 5).length := by
      rw [List.length_take_of_le hlong]
      rfl
    rw [List.flatMap_cons, hsplit, List.append_assoc] at hbytes
    obtain ⟨hfirst, hrest⟩ := List.append_inj hbytes hsame
    refine .cons ⟨hw, fun b hb => hshows b (List.mem_of_mem_take (hfirst ▸ hb))⟩ ?_
    exact legible_of_bytes hws hk hrest (fun b hb => hshows b (List.mem_of_mem_drop hb))

/-! ## The index of what a byte prints -/

theorem toNat_nonzeroBytes {ws : List Word} (h : ∀ w ∈ ws, Fits blockBits w) :
    (nonzeroBytes ws).map (fun b => (b.toNat : Int)) = (ws.flatMap lowBytes).filter (· ≠ 0) := by
  have hprinted : ws.flatMap printed = (ws.flatMap blockBytes).filter (· != 0) := by
    rw [List.filter_flatMap, List.flatMap_def, List.flatMap_def, List.map_congr_left (fun w hw => printed_eq (h w hw))]
  have hzero : ∀ b : UInt8, (b != 0) = decide ((b.toNat : Int) ≠ 0) := by
    intro b
    have hb : b = 0 ↔ b.toNat = 0 := UInt8.toNat_inj.symm
    by_cases h0 : b = 0
    · simp [h0]
    · simp [bne, h0, hb.not.1 h0]
  rw [nonzeroBytes_eq, hprinted, show lowBytes = _ from funext lowBytes_eq, ← List.map_flatMap, List.filter_map]
  simp only [Function.comp_def, hzero]

/-- **In a table without duplicates, what a byte prints has that byte as its index**, if the byte is in the table. -/
theorem index_of_shown (hnodup : table.Nodup) {b : UInt8} (hb : b.toNat < table.length) :
    table.index (table.shown false b) = b.toNat := by
  have hentry : table[b.toNat]? = some table[b.toNat] := List.getElem?_eq_getElem hb
  have hshown : table.shown false b = table[b.toNat] := by simp [shown, glyph, hentry]
  rw [hshown]
  refine (IndexOf.eq_index (.first b.toNat hentry (fun j hj => ?_))).symm
  rw [← hentry]
  exact List.nodup_iff_getElem?_ne_getElem?.1 hnodup j b.toNat hj hb

theorem map_index_render (hnodup : table.Nodup) {ws : List Word}
    (hbytes : ∀ b ∈ nonzeroBytes ws, b.toNat < table.length) :
    (table.render false ws).map table.index = (nonzeroBytes ws).map (fun b => (b.toNat : Int)) := by
  rw [table.render_eq, List.map_map]
  exact List.map_congr_left fun b hb => index_of_shown hnodup (hbytes b hb)

theorem Checked.points_render (h : table.Checked) {ws : List Word} (hapart : table.Apart ws) :
    Text.points (table.render false ws).flatten = table.render false ws :=
  Text.points_flatten (h.render_single false ws) hapart

theorem shows_nonzeroBytes {ws : List Word} :
    table.Shows ((nonzeroBytes ws).map (fun b => (b.toNat : Int))) ↔ ∀ b ∈ nonzeroBytes ws, b.toNat < table.length := by
  constructor
  · intro h b hb
    have := (h b.toNat (List.mem_map.2 ⟨b, hb, rfl⟩)).2
    omega
  · intro h x hx
    obtain ⟨b, hb, rfl⟩ := List.mem_map.1 hx
    have hlt := h b hb
    have hne : b ≠ 0 := by simpa using (List.mem_filter.1 hb).2
    have hpos : b.toNat ≠ 0 := fun h0 => hne (UInt8.toNat_inj.1 h0)
    exact ⟨by omega, by omega⟩

/-! ## Printed and encoded again -/

theorem padded_eq {ws : List Word} {bytes : List Int} {k : Nat} (hk : k < 5)
    (h : ws.flatMap lowBytes = bytes ++ List.replicate k 0) : padded bytes = bytes ++ List.replicate k 0 := by
  have hlen := length_flatMap_lowBytes ws
  rw [h, List.length_append, List.length_replicate] at hlen
  have hpad : padding bytes.length = k := by
    unfold padding perWord
    omega
  rw [padded, hpad]

theorem length_filter_padded_le (indexes : List Int) : ((padded indexes).filter (· ≠ 0)).length ≤ indexes.length := by
  have hzeros : (List.replicate (padding indexes.length) (0 : Int)).filter (· ≠ 0) = [] :=
    List.filter_eq_nil_iff.2 (fun b hb => by simp [List.eq_of_mem_replicate hb])
  rw [padded, List.filter_append, hzeros, List.append_nil]
  exact List.length_filter_le _ _

theorem Checked.encode_render_of_legible (h : table.Checked) (hnodup : table.Nodup) {ws : List Word}
    (hws : table.Legible ws) (hapart : table.Apart ws) : table.encode (table.render false ws).flatten = ws := by
  obtain ⟨hfits, bytes, k, hk, hbytes, hshows⟩ := bytes_of_legible hws
  have hkept : (nonzeroBytes ws).map (fun b => (b.toNat : Int)) = bytes := by
    have hnonzero : bytes.filter (· ≠ 0) = bytes :=
      List.filter_eq_self.2 (fun b hb => by have := hshows b hb; simp; omega)
    rw [toNat_nonzeroBytes hfits, hbytes, List.filter_append, hnonzero]
    simp
  have hin := shows_nonzeroBytes.1 (hkept.symm ▸ hshows)
  refine h.encode_eq_iff.2 ⟨hfits, ?_⟩
  rw [h.points_render hapart, map_index_render hnodup hin, hkept, hbytes, padded_eq hk hbytes]

/-- **Words that come back have glyphs that do not meet**: two that did would make one code point, and there would not be
an index for every byte that is not zero. -/
theorem Checked.apart_of_encode_render (h : table.Checked) {ws : List Word}
    (hws : table.encode (table.render false ws).flatten = ws) : table.Apart ws := by
  obtain ⟨hfits, hbytes⟩ := h.encode_eq_iff.1 hws
  have hglyphs := Text.length_points_flatten (h.render_single false ws)
  have hcount : (nonzeroBytes ws).length ≤ (Text.points (table.render false ws).flatten).length := by
    have hnonzero := congrArg List.length (toNat_nonzeroBytes hfits)
    have hle := length_filter_padded_le ((Text.points (table.render false ws).flatten).map table.index)
    rwa [← hbytes, ← hnonzero, List.length_map, List.length_map] at hle
  rw [table.length_render] at hglyphs
  exact Text.meetings_eq_zero_iff.1 (by omega)

theorem Checked.legible_of_encode_render (h : table.Checked) (hnodup : table.Nodup) {ws : List Word}
    (hws : table.encode (table.render false ws).flatten = ws) : table.Legible ws := by
  obtain ⟨hfits, hbytes⟩ := h.encode_eq_iff.1 hws
  -- every byte of the words is an index or a zero that fills up, so none was shown as the sentinel
  have hin : ∀ b ∈ ws.flatMap lowBytes, b < table.length := by
    intro b hb
    rw [hbytes, padded, List.mem_append] at hb
    rcases hb with hb | hb
    · obtain ⟨c, -, rfl⟩ := List.mem_map.1 hb
      exact (h.index_range c).2
    · have hpos := h.nonempty
      have hzero := List.eq_of_mem_replicate hb
      omega
  have hshown : ∀ b ∈ nonzeroBytes ws, b.toNat < table.length := by
    intro b hb
    have hmem : (b.toNat : Int) ∈ (nonzeroBytes ws).map (fun b => (b.toNat : Int)) := List.mem_map.2 ⟨b, hb, rfl⟩
    rw [toNat_nonzeroBytes hfits] at hmem
    have := hin _ (List.mem_filter.1 hmem).1
    omega
  rw [h.points_render (h.apart_of_encode_render hws), map_index_render hnodup hshown] at hbytes
  exact legible_of_bytes hfits (Nat.mod_lt _ (by decide)) hbytes (shows_nonzeroBytes.2 hshown)

/-- **Which words come back when their glyphs are encoded**: for a table that passed its check and has no entry twice,
encoding what a list of integers prints, joined, gives the list itself exactly if every word is of 40 bits and each of
its five bytes is in the table and not zero, but that the last word may end in one to four zero bytes; and if no glyph
that is the first half of a pair by itself stands right before one that is the second half. -/
theorem encode_render_eq_iff {field : String} {vs : List Value} (h : Table.ofValues field vs = .ok table)
    (hnodup : table.Nodup) (ws : List Word) :
    table.encode (table.render false ws).flatten = ws ↔ table.Legible ws ∧ table.Apart ws := by
  have hchecked := (checked_of_ofValues h).2
  constructor
  · intro hws
    exact ⟨hchecked.legible_of_encode_render hnodup hws, hchecked.apart_of_encode_render hws⟩
  · rintro ⟨hlegible, hapart⟩
    exact hchecked.encode_render_of_legible hnodup hlegible hapart

/-- A table with the sentinel at place zero: two words that come back, and two that do not, because a zero byte is left
out of the first and a byte past the end of the table is shown as the sentinel and comes back as zero. -/
theorem encode_render_eq_iff_sentinel :
    let table : Table := ["?", "A", "B"]
    Table.ofValues "glyphs" [.text "?", .text "A", .text "B"] = .ok table ∧ table.Nodup ∧
      table.encode (table.render false [0x0102010201, 0x0200000000]).flatten = [0x0102010201, 0x0200000000] ∧
      ¬ (table.Legible [0x0100010201, 0x0201020000] ∧ table.Apart [0x0100010201, 0x0201020000]) ∧
      ¬ (table.Legible [0x0103010201] ∧ table.Apart [0x0103010201]) := by
  intro table
  have h : Table.ofValues "glyphs" [.text "?", .text "A", .text "B"] = .ok table := rfl
  have hnodup : table.Nodup := by decide
  have hlegible : table.Legible [0x0102010201, 0x0200000000] :=
    .cons ⟨by decide, by decide⟩ (.last ⟨by decide, [2], 4, by decide, by decide, rfl, by decide⟩)
  have hapart : table.Apart [0x0102010201, 0x0200000000] := by decide +kernel
  refine ⟨h, hnodup, (encode_render_eq_iff h hnodup _).2 ⟨hlegible, hapart⟩, fun hzero => ?_, fun hpast => ?_⟩
  · exact absurd ((encode_render_eq_iff h hnodup _).2 hzero) (by decide +kernel)
  · exact absurd ((encode_render_eq_iff h hnodup _).2 hpast) (by decide +kernel)

/-- A table with the two halves of a pair as entries: the five bytes of the word print as entries, but the glyphs make
two pairs and come back as three code points. -/
theorem encode_render_halves :
    let table : Table := ["x", [0xD83D], [0xDE00]]
    let ws : List Word := [0x0102010201]
    Table.ofValues "glyphs" [.text "x", .text [0xD83D], .text [0xDE00]] = .ok table ∧ table.Nodup ∧
      table.encode (table.render false ws).flatten = [0x0202010000] ∧
      ¬ (table.encode (table.render false ws).flatten = ws ↔ table.Legible ws) := by
  intro table ws
  have hlegible : table.Legible ws := .cons ⟨by decide, by decide⟩ .nil
  have hback : table.encode (table.render false ws).flatten = [0x0202010000] := by decide +kernel
  refine ⟨rfl, by decide, hback, fun hiff => ?_⟩
  exact absurd (hback.symm.trans (hiff.2 hlegible)) (by decide)

end Table
end Glyph
end GlyphChain
