import GlyphChain.Glyph.Encode
import GlyphChain.Glyph.Render
import GlyphChain.Proofs.Glyph.Printing
import GlyphChain.Proofs.Word.ByteView
/-!
# Layout — texts packed into words and printed again

Packing keeps the bytes of a text in order, five to a word, and fills up the last word with zeros (`flatMap_blockBytes`).
A word of 40 bits prints the glyphs of its five low bytes other than zero, so the words of a text print the text as the
table can write it (`line_encode`): each code point as the entry at its place, and nothing for the entry at place zero.
-/
namespace GlyphChain
namespace Glyph

open Word (low blockBits Fits bigEndian bytesValue)

/-- The five bytes of a block word, most significant first. -/
def blockBytes (x : Word) : List UInt8 := bigEndian perWord (low blockBits x).toNat

/-- How many zero bytes fill up the last word of `n` bytes. -/
def padding (n : Nat) : Nat := (perWord - n % perWord) % perWord

/-! ## Packing -/

theorem pow_perWord : Nat.pow 256 perWord = Word.span blockBits := by decide

theorem fits_bytesValue {bytes : List UInt8} (h : bytes.length = perWord) : Fits blockBits (bytesValue bytes) := by
  have hfits := Word.fits_bytesValue bytes
  rwa [h] at hfits

theorem blockBytes_bytesValue {bytes : List UInt8} (h : bytes.length = perWord) :
    blockBytes (bytesValue bytes) = bytes := by
  rw [blockBytes, (fits_bytesValue h).low_eq, Int.toNat_natCast, ← h, Word.bigEndian_bytesValue]

theorem bytesValue_blockBytes {x : Word} (h : Fits blockBits x) : (bytesValue (blockBytes x) : Word) = x := by
  obtain ⟨n, rfl⟩ := Int.eq_ofNat_of_zero_le h.1
  have hn : n < Nat.pow 256 perWord := by
    rw [pow_perWord]
    exact Int.ofNat_lt.1 h.2
  rw [blockBytes, h.low_eq, Int.toNat_natCast, Word.bytesValue_bigEndian, Nat.mod_eq_of_lt hn]

/-- **What packing does**: it fills the bytes up with zeros, cuts them into fives and takes the value of each. -/
theorem pack_chunks : ∀ bytes : List UInt8, ∃ chunks : List (List UInt8),
    (∀ c ∈ chunks, c.length = perWord) ∧ chunks.flatten = bytes ++ List.replicate (padding bytes.length) 0 ∧
      pack bytes = chunks.map (fun c => (bytesValue c : Word))
  | [] => ⟨[], by simp, rfl, rfl⟩
  | a :: b :: c :: d :: e :: rest => by
    obtain ⟨chunks, hlen, hflat, hpack⟩ := pack_chunks rest
    have hpad : padding (a :: b :: c :: d :: e :: rest).length = padding rest.length := by
      simp only [padding, perWord, List.length_cons]
      omega
    refine ⟨[a, b, c, d, e] :: chunks, List.forall_mem_cons.2 ⟨rfl, hlen⟩, ?_, ?_⟩
    · rw [List.flatten_cons, hflat, hpad]
      rfl
    · rw [pack, hpack, List.map_cons]
  | [a] => ⟨[[a, 0, 0, 0, 0]], by simp [perWord], rfl, rfl⟩
  | [a, b] => ⟨[[a, b, 0, 0, 0]], by simp [perWord], rfl, rfl⟩
  | [a, b, c] => ⟨[[a, b, c, 0, 0]], by simp [perWord], rfl, rfl⟩
  | [a, b, c, d] => ⟨[[a, b, c, d, 0]], by simp [perWord], rfl, rfl⟩

/-- **Packing takes one word for each five bytes begun.** -/
theorem length_pack (bytes : List UInt8) : (pack bytes).length = (bytes.length + 4) / 5 := by
  obtain ⟨chunks, hlen, hflat, hpack⟩ := pack_chunks bytes
  have hsum : chunks.flatten.length = chunks.length * 5 := by
    rw [List.length_flatten, List.map_eq_replicate_iff.2 hlen, List.sum_replicate_nat]
    rfl
  rw [hflat, List.length_append, List.length_replicate, padding, perWord] at hsum
  rw [hpack, List.length_map]
  omega

theorem fits_pack (bytes : List UInt8) : ∀ w ∈ pack bytes, Fits blockBits w := by
  obtain ⟨chunks, hlen, -, hpack⟩ := pack_chunks bytes
  intro w hw
  rw [hpack, List.mem_map] at hw
  obtain ⟨c, hc, rfl⟩ := hw
  exact fits_bytesValue (hlen c hc)

/-- **The bytes of packed words are the bytes packed, then the zeros that fill up the last word.** -/
theorem flatMap_blockBytes (bytes : List UInt8) :
    (pack bytes).flatMap blockBytes = bytes ++ List.replicate (padding bytes.length) 0 := by
  obtain ⟨chunks, hlen, hflat, hpack⟩ := pack_chunks bytes
  have hback : chunks.map (fun c => blockBytes (bytesValue c)) = chunks := by
    rw [List.map_congr_left (fun c hc => blockBytes_bytesValue (hlen c hc)), List.map_id']
  rw [hpack, List.flatMap_map, List.flatMap_def, hback, hflat]

/-! ## Printing -/

/-- **A word of 40 bits prints its five low bytes**, but for the zeros among them. -/
theorem printed_eq {x : Word} (h : Fits blockBits x) : printed x = (blockBytes x).filter (· != 0) := by
  have hlen : (blockBytes x).length = 5 := Word.length_bigEndian ..
  have hbytes : Word.toBytes x = (blockBytes x).leftpad 8 0 := by
    rw [← Word.toBytes_bytesValue (by omega), bytesValue_blockBytes h]
  rw [printed, hbytes, List.leftpad, hlen, List.filter_append]
  rfl

/-- **Packed bytes print as they are**, but for the zeros among them. -/
theorem flatMap_printed (bytes : List UInt8) : (pack bytes).flatMap printed = bytes.filter (· != 0) := by
  have hzeros : (List.replicate (padding bytes.length) (0 : UInt8)).filter (· != 0) = [] :=
    List.filter_eq_nil_iff.2 (fun b hb => by simp [List.eq_of_mem_replicate hb])
  have hwords : ∀ w ∈ pack bytes, printed w = (blockBytes w).filter (· != 0) :=
    fun w hw => printed_eq (fits_pack bytes w hw)
  rw [List.flatMap_def, List.map_congr_left hwords, ← List.flatMap_def, ← List.filter_flatMap, flatMap_blockBytes,
    List.filter_append, hzeros, List.append_nil]

/-! ## Texts through a table -/

/-- The place of a code point in a table: that of the first entry which is the code point, or else the last one. -/
def Table.place (table : Table) (c : Text) : Nat :=
  (table.findIdx? (· == c)).getD (table.length - 1)

/-- A text as a table can write it: each code point is the entry at its place, and place zero is left out. -/
def Table.normalized (table : Table) (text : Text) : Text :=
  (text.points.filterMap (fun c => if table.place c = 0 then none else table[table.place c]?)).flatten

theorem Table.place_lt {table : Table} (h : 0 < table.length) (c : Text) : table.place c < table.length := by
  unfold Table.place
  cases hf : table.findIdx? (· == c) with
  | none => exact Nat.sub_lt h Nat.one_pos
  | some i =>
    obtain ⟨hi, -⟩ := List.findIdx?_eq_some_iff_getElem.1 hf
    exact hi

theorem Table.index_eq_place {table : Table} (h : 0 < table.length) (c : Text) : table.index c = table.place c := by
  unfold Table.index Table.place
  cases table.findIdx? (· == c) with
  | none => exact (Int.ofNat_sub h).symm
  | some i => rfl

/-- **In a table of at most 256 entries the byte of a code point is its place.** -/
theorem Table.toNat_byte {table : Table} (h : table.Checked) (c : Text) : (table.byte c).toNat = table.place c := by
  have hplace : table.place c < 256 := Nat.lt_of_lt_of_le (table.place_lt h.nonempty c) h.short
  rw [Table.byte, table.index_eq_place h.nonempty, UInt8.toNat_ofNat']
  omega

theorem Table.glyph_byte {table : Table} (h : table.Checked) (c : Text) :
    table[table.place c]? = some (table.glyph (table.byte c)) := by
  have hlt := table.place_lt h.nonempty c
  rw [Table.glyph, table.toNat_byte h, List.getElem?_eq_getElem hlt]
  rfl

theorem Table.map_glyph_filter {table : Table} (h : table.Checked) : ∀ cs : List Text,
    ((cs.map table.byte).filter (· != 0)).map table.glyph =
      cs.filterMap (fun c => if table.place c = 0 then none else table[table.place c]?)
  | [] => rfl
  | c :: cs => by
    have ih := Table.map_glyph_filter h cs
    have hbyte := table.toNat_byte h c
    by_cases hc : table.place c = 0
    · have hzero : table.byte c = 0 := UInt8.toNat_inj.1 (hbyte.trans hc)
      rw [List.map_cons, List.filter_cons, List.filterMap_cons, if_pos hc, hzero]
      exact ih
    · have hne : (table.byte c != 0) = true := by
        rw [bne_iff_ne]
        intro hzero
        rw [hzero] at hbyte
        exact hc hbyte.symm
      rw [List.map_cons, List.filter_cons, if_pos hne, List.filterMap_cons, if_neg hc, table.glyph_byte h, List.map_cons,
        ih]

/-- **The words of a text print the text as the table can write it.** -/
theorem Table.line_encode {table : Table} (h : table.Checked) (text : Text) :
    table.line false (table.encode text) = table.normalized text ++ "\n" := by
  rw [Table.line, table.render_eq, Table.encode, nonzeroBytes_eq, flatMap_printed, Table.normalized, ← table.map_glyph_filter h]
  rfl

theorem Table.length_encode (table : Table) (text : Text) :
    (table.encode text).length = (text.points.length + 4) / 5 := by
  rw [Table.encode, length_pack, List.length_map]

theorem Table.fits_encode (table : Table) (text : Text) : ∀ w ∈ table.encode text, Fits blockBits w :=
  fits_pack _

end Glyph
end GlyphChain
