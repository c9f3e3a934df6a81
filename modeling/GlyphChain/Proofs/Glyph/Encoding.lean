import GlyphChain.Proofs.Glyph.Layout
/-!
# Encoding — what the words of a text hold, for every table

The bytes of the words, five to a word, are the indexes of the code points in the table, cut to eight bits, and then the
zeros that fill up the last word.  Nothing is asked of the table: it may be empty or too long, and it may have an entry
twice or entries that are no single code point.  So a text that ends with a full word can be encoded apart from what
follows it, unless the two meet in the middle of a pair (`Table.encode_append`).  The words can also be packed slice by
slice, each slice checked for its length (`packSlices_eq`).  In a table that passed its check no index is cut, and the
words of a text are those of 40 bits that hold its indexes and the zeros after them (`Table.Checked.encode_eq_iff`).
-/
namespace GlyphChain
namespace Glyph

open Word (blockBits Fits bigEndian bytesValue)

/-! ## The bytes of a word -/

/-- The five low bytes of a word, most significant first. -/
def lowBytes (x : Word) : List Int :=
  [x / 0x100000000 % 0x100, x / 0x1000000 % 0x100, x / 0x10000 % 0x100, x / 0x100 % 0x100, x % 0x100]

theorem toNat_map_bigEndian (n : Nat) : (bigEndian perWord n).map UInt8.toNat =
    [n / 0x100000000 % 0x100, n / 0x1000000 % 0x100, n / 0x10000 % 0x100, n / 0x100 % 0x100, n % 0x100] := by
  simp [perWord, bigEndian, Nat.div_div_eq_div_mul]

theorem lowBytes_eq (x : Word) : lowBytes x = (blockBytes x).map (fun b => (b.toNat : Int)) := by
  have hcomp : (fun b : UInt8 => (b.toNat : Int)) = Nat.cast ∘ UInt8.toNat := rfl
  have hlow : Word.low blockBits x = x % 0x10000000000 := rfl
  have hnonneg : 0 ≤ x % 0x10000000000 := Int.emod_nonneg x (by decide)
  rw [blockBytes, hlow, hcomp, ← List.map_map, toNat_map_bigEndian]
  simp only [lowBytes, List.map_cons, List.map_nil, Int.natCast_emod, Int.natCast_ediv, Int.toNat_of_nonneg hnonneg,
    List.cons.injEq, and_true]
  omega

theorem eq_of_lowBytes {x y : Word} (hx : Fits blockBits x) (hy : Fits blockBits y) (h : lowBytes x = lowBytes y) :
    x = y := by
  have hinj : Function.Injective (fun b : UInt8 => (b.toNat : Int)) :=
    fun a b hab => UInt8.toNat_inj.1 (Int.ofNat.inj hab)
  rw [lowBytes_eq, lowBytes_eq] at h
  rw [← bytesValue_blockBytes hx, List.map_injective_iff.2 hinj h, bytesValue_blockBytes hy]

/-- **Words of 40 bits are settled by their bytes**, written one word after the other. -/
theorem eq_of_flatMap_lowBytes : ∀ {ws vs : List Word}, (∀ w ∈ ws, Fits blockBits w) → (∀ v ∈ vs, Fits blockBits v) →
    ws.flatMap lowBytes = vs.flatMap lowBytes → ws = vs
  | [], [], _, _, _ => rfl
  | [], _ :: _, _, _, h => by cases h
  | _ :: _, [], _, _, h => by cases h
  | w :: ws, v :: vs, hws, hvs, h => by
    obtain ⟨hw, hws⟩ := List.forall_mem_cons.1 hws
    obtain ⟨hv, hvs⟩ := List.forall_mem_cons.1 hvs
    rw [List.flatMap_cons, List.flatMap_cons] at h
    obtain ⟨hfirst, hrest⟩ := List.append_inj h rfl
    rw [eq_of_lowBytes hw hv hfirst, eq_of_flatMap_lowBytes hws hvs hrest]

/-! ## Bytes packed slice by slice -/

theorem packSlices_eq : ∀ bytes : List UInt8, packSlices bytes = .ok (pack bytes)
  | [] => rfl
  | a :: b :: c :: d :: e :: rest => by
    have ih := packSlices_eq rest
    have hcount : ((a :: b :: c :: d :: e :: rest).length + 4) / 5 = (rest.length + 4) / 5 + 1 := by
      simp only [List.length_cons]
      omega
    have hdrop : ∀ k, (a :: b :: c :: d :: e :: rest).drop (perWord * (k + 1)) = rest.drop (perWord * k) := fun _ => rfl
    unfold packSlices at ih ⊢
    rw [hcount, List.range_succ_eq_map, List.mapM_cons, List.mapM_map]
    simp only [Function.comp_def, Nat.succ_eq_add_one, hdrop, ih]
    rfl
  | [_] => by simp [packSlices, pack, Word.ofBytes, perWord]
  | [_, _] => by simp [packSlices, pack, Word.ofBytes, perWord]
  | [_, _, _] => by simp [packSlices, pack, Word.ofBytes, perWord]
  | [_, _, _, _] => by simp [packSlices, pack, Word.ofBytes, perWord]

theorem pack_append : ∀ xs ys : List UInt8, xs.length % 5 = 0 → pack (xs ++ ys) = pack xs ++ pack ys
  | [], _, _ => rfl
  | a :: b :: c :: d :: e :: rest, ys, h => by
    have hrest : rest.length % 5 = 0 := by
      simp only [List.length_cons] at h
      omega
    simp only [List.cons_append, pack, pack_append rest ys hrest]
  | [_], _, h => by cases h
  | [_, _], _, h => by cases h
  | [_, _, _], _, h => by cases h
  | [_, _, _, _], _, h => by cases h

/-! ## The index of a code point -/

/-- Indexes filled up with zeros to a multiple of five. -/
def padded (indexes : List Int) : List Int := indexes ++ List.replicate (padding indexes.length) 0

namespace Table

/-- The index of a code point: that of the first entry which is the code point, or one less than the length of the
table. -/
inductive IndexOf (table : Table) (c : Text) : Int → Prop
  | first (i : Nat) (found : table[i]? = some c) (least : ∀ j < i, table[j]? ≠ some c) : IndexOf table c i
  | missing (absent : c ∉ table) : IndexOf table c (table.length - 1)

theorem indexOf_index (table : Table) (c : Text) : table.IndexOf c (table.index c) := by
  unfold index
  cases hf : table.findIdx? (· == c) with
  | none =>
    refine .missing (fun hmem => ?_)
    have := List.findIdx?_eq_none_iff.1 hf _ hmem
    simp at this
  | some i =>
    obtain ⟨hi, hfound, hleast⟩ := List.findIdx?_eq_some_iff_getElem.1 hf
    refine .first i ?_ (fun j hj => ?_)
    · rw [List.getElem?_eq_getElem hi, eq_of_beq hfound]
    · intro hsame
      obtain ⟨hjlt, hentry⟩ := List.getElem?_eq_some_iff.1 hsame
      exact hleast j hj (by rw [hentry, beq_self_eq_true])

theorem IndexOf.eq_index {table : Table} {c : Text} {i : Int} (h : table.IndexOf c i) : i = table.index c := by
  unfold index
  cases h with
  | first i found least =>
    obtain ⟨hi, hentry⟩ := List.getElem?_eq_some_iff.1 found
    have hfirst : table.findIdx? (· == c) = some i := by
      refine List.findIdx?_eq_some_iff_getElem.2 ⟨hi, by rw [hentry, beq_self_eq_true], fun j hj hsame => ?_⟩
      exact least j hj (List.getElem?_eq_some_iff.2 ⟨Nat.lt_trans hj hi, eq_of_beq hsame⟩)
    rw [hfirst]
  | missing absent =>
    have hnone : table.findIdx? (· == c) = none := by
      refine List.findIdx?_eq_none_iff.2 (fun g hg => beq_eq_false_iff_ne.2 ?_)
      rintro rfl
      exact absent hg
    rw [hnone]

theorem forall₂_indexOf (table : Table) : ∀ cs : List Text, List.Forall₂ table.IndexOf cs (cs.map table.index)
  | [] => .nil
  | c :: cs => .cons (table.indexOf_index c) (table.forall₂_indexOf cs)

theorem eq_map_index {table : Table} : ∀ {cs : List Text} {indexes : List Int},
    List.Forall₂ table.IndexOf cs indexes → indexes = cs.map table.index
  | _, _, .nil => rfl
  | _, _, .cons hc hcs => by rw [List.map_cons, hc.eq_index, eq_map_index hcs]

theorem toNat_byte_eq (table : Table) (c : Text) : ((table.byte c).toNat : Int) = table.index c % 256 := by
  have hnonneg : 0 ≤ table.index c % 256 := Int.emod_nonneg _ (by decide)
  have hlt : table.index c % 256 < 256 := Int.emod_lt_of_pos _ (by decide)
  rw [byte, UInt8.toNat_ofNat']
  omega

theorem flatMap_lowBytes_encode (table : Table) (text : Text) :
    (table.encode text).flatMap lowBytes =
      (text.points.map table.index).map (· % 256) ++ List.replicate (padding text.points.length) 0 := by
  have hbytes : (text.points.map table.byte).map (fun b => (b.toNat : Int)) =
      (text.points.map table.index).map (· % 256) := by
    rw [List.map_map, List.map_map]
    exact List.map_congr_left (fun c _ => table.toNat_byte_eq c)
  rw [show lowBytes = _ from funext lowBytes_eq, ← List.map_flatMap, encode, flatMap_blockBytes, List.map_append, hbytes,
    List.map_replicate, List.length_map]
  rfl

/-! ## Tables that passed their check -/

theorem Checked.index_range {table : Table} (h : table.Checked) (c : Text) :
    0 ≤ table.index c ∧ table.index c < table.length := by
  have hlt := table.place_lt h.nonempty c
  rw [table.index_eq_place h.nonempty]
  omega

theorem Checked.flatMap_lowBytes_encode {table : Table} (h : table.Checked) (text : Text) :
    (table.encode text).flatMap lowBytes = padded (text.points.map table.index) := by
  have hbyte : ∀ c, table.index c % 256 = table.index c := by
    intro c
    have hrange := h.index_range c
    have hshort : table.length ≤ 256 := h.short
    omega
  rw [table.flatMap_lowBytes_encode, padded, List.map_map, List.length_map]
  simp only [Function.comp_def, hbyte]

/-- **Which words a text is encoded as**: those of 40 bits whose bytes are the text's indexes, filled up with zeros. -/
theorem Checked.encode_eq_iff {table : Table} (h : table.Checked) {text : Text} {ws : List Word} :
    table.encode text = ws ↔
      (∀ w ∈ ws, Fits blockBits w) ∧ ws.flatMap lowBytes = padded (text.points.map table.index) := by
  constructor
  · rintro rfl
    exact ⟨table.fits_encode text, h.flatMap_lowBytes_encode text⟩
  · rintro ⟨hfits, hbytes⟩
    exact eq_of_flatMap_lowBytes (table.fits_encode text) hfits ((h.flatMap_lowBytes_encode text).trans hbytes.symm)

/-! ## Texts of any table -/

theorem encode_append (table : Table) {a b : Text} (h : a.points.length % 5 = 0) (hmeets : ¬ Text.Meets a b) :
    table.encode (a ++ b) = table.encode a ++ table.encode b := by
  rw [encode, Text.points_append hmeets, List.map_append]
  refine pack_append _ _ ?_
  rw [List.length_map]
  exact h

/-- **What the words of a text hold**, for every text and every list of texts as the table: packing the bytes slice by
slice meets no slice that is too long; there is one word for each five code points begun, each of 40 bits; the bytes of
the words, five to a word and most significant first, are the indexes of the code points modulo 256, each the first one
or else one less than the table's length, and then fewer than five zeros.  So texts are encoded one after the other
wherever the first ends with a full word and does not end with half a pair that the second goes on with. -/
theorem encode_holds_indexes (table : Table) (text : Text) :
    table.encodeSlices text = .ok (table.encode text) ∧
    (table.encode text).length = (text.points.length + 4) / 5 ∧
    (∀ w ∈ table.encode text, 0 ≤ w ∧ w < 0x10000000000) ∧
    (∃ (indexes : List Int) (k : Nat), List.Forall₂ table.IndexOf text.points indexes ∧ k < 5 ∧
      (table.encode text).flatMap lowBytes = indexes.map (· % 256) ++ List.replicate k 0) ∧
    ∀ rest : Text, text.points.length % 5 = 0 → ¬ Text.Meets text rest →
      table.encode (text ++ rest) = table.encode text ++ table.encode rest := by
  refine ⟨packSlices_eq _, table.length_encode text, table.fits_encode text, ?_,
    fun rest h hmeets => table.encode_append h hmeets⟩
  exact ⟨_, padding text.points.length, table.forall₂_indexOf text.points, Nat.mod_lt _ (by decide),
    table.flatMap_lowBytes_encode text⟩

/-- A table of 302 entries, all of two code points but the last two, which are the same: the first of these is at 300. -/
theorem encode_holds_indexes_long :
    let table : Table := List.replicate 300 "ab" ++ ["x", "x"]
    (Text.points "xyxxx").length % 5 = 0 ∧ ¬ Text.Meets "xyxxx" "y" ∧
      table.encode (Text.ofString "xyxxx" ++ "y") = [0x2c2d2c2c2c, 0x2d00000000] := by
  intro table
  have h : (Text.points "xyxxx").length % 5 = 0 := by decide
  have hmeets : ¬ Text.Meets "xyxxx" "y" := by decide
  refine ⟨h, hmeets, ((encode_holds_indexes table "xyxxx").2.2.2.2 "y" h hmeets).trans ?_⟩
  decide +kernel

/-- Five code points, the last of them half a pair, and the other half: apart they take two words, joined only one. -/
theorem encode_append_halves :
    let a : Text := Text.ofString "AAAA" ++ [0xD83D]
    let b : Text := [0xDE00]
    a.points.length % 5 = 0 ∧ standard.encode (a ++ b) ≠ standard.encode a ++ standard.encode b := by
  intro a b
  exact ⟨by decide, by decide +kernel⟩

example : Table.encode [] "a" = [0xff00000000] := by decide +kernel

end Table
end Glyph
end GlyphChain
