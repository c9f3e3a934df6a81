import GlyphChain.Profile.Steps
import GlyphChain.Proofs.Cipher.Loop
import GlyphChain.Proofs.Glyph.Encoding
import GlyphChain.Proofs.Profile.Accepted
/-!
# Loaded — a profile that was read never fails later

The steps of decrypting, encrypting and verifying make each check where it is met: the key and the rounds before a chain
and again at each of its blocks, the number of bytes of each word that is packed, and each glyph looked up by its byte.
What reading a profile checked is enough for all of them, so each of the three comes to its end, and to the same end as
without the checks.
-/
namespace GlyphChain
namespace Profile

open Word (low blockBits)

theorem all_zip_iff (f : Word → Word) : ∀ ws cs : List Word,
    (ws.length == cs.length && (ws.zip cs).all fun w => w.1 == f w.2) = true ↔ ws = cs.map f
  | [], [] => by simp
  | [], _ :: _ => by simp
  | _ :: _, [] => by simp
  | w :: ws, c :: cs => by
    have ih := all_zip_iff f ws cs
    simp only [Bool.and_eq_true, beq_iff_eq, List.length_cons, Nat.add_right_cancel_iff, List.zip_cons_cons,
      List.all_cons, List.map_cons, List.cons.injEq] at ih ⊢
    rw [← ih]
    exact and_left_comm

variable {p : Profile}

/-! ## Each operation of a profile that passed the checks -/

theorem Accepted.decryptSteps_eq (ha : p.Accepted) (lower : Bool) :
    p.decryptSteps lower = .ok (p.decrypted, p.line lower) := by
  have hwords : p.settings.decryptLoop p.chain = .ok p.decrypted := by
    rw [Cipher.Settings.decryptLoop_eq]
    exact Cipher.Settings.decryptChain_ofParams ha.rounds p.chain
  rw [decryptSteps, hwords, ok_bind, p.glyphs.lookupLine_eq]
  rfl

theorem Accepted.encryptSteps_eq (ha : p.Accepted) (text : Text) : p.encryptSteps text = .ok (p.encrypt text) := by
  rw [encryptSteps, Glyph.Table.encodeSlices, Glyph.packSlices_eq, ok_bind, Cipher.Settings.encryptLoop_eq]
  exact Cipher.Settings.encryptChain_ofParams ha.rounds _

theorem Accepted.verifySteps_eq (ha : p.Accepted) (text : Text) : p.verifySteps text = .ok (p.verify text) := by
  rw [verifySteps, ha.encryptSteps_eq, ok_bind]
  refine congrArg Except.ok (Bool.eq_iff_iff.2 ?_)
  rw [all_zip_iff, verify, decide_eq_true_iff]

theorem length_trace (p : Profile) (words : List Word) :
    (p.trace words).length = p.chain.length + words.length + 7 := by
  simp only [trace, Key.words, List.length_append, List.length_cons, List.length_map, List.length_nil]
  omega

/-- **A profile that was read never fails later**, for every text and with or without lower case.  Decrypting, encrypting
and verifying pass all checks on their way and end with the profile's words, line and answer; every byte that prints is
looked up as an entry of the table or as the sentinel; there are as many decrypted words as the chain has, and the trace
has a line for each word and three more.  The line is a glyph of one code point for each byte of the decrypted words'
eight that is not zero, and a line end; its code points are as many, less one for each glyph that is the first half of a
pair by itself and stands right before one that is the second half. -/
theorem loaded_never_fails {source : String} {v : Value} (hp : ofValue source v = .ok p) (text : Text) (lower : Bool) :
    p.decryptSteps lower = .ok (p.decrypted, p.line lower) ∧
    p.encryptSteps text = .ok (p.encrypt text) ∧
    p.verifySteps text = .ok (p.verify text) ∧
    (p.trace p.decrypted).length = p.chain.length + p.decrypted.length + 7 ∧
    p.decrypted.length = p.chain.length ∧
    (∀ b ∈ Glyph.nonzeroBytes p.decrypted,
      (∃ g ∈ p.glyphs, p.glyphs[b.toNat]? = some g ∧ p.glyphs.lookup (.ofInt b.toNat) = some g) ∨
        p.glyphs.length ≤ b.toNat ∧ p.glyphs.lookup (.ofInt b.toNat) = some Glyph.sentinel) ∧
    ∃ glyphs : List Text, p.glyphs.lookups lower p.decrypted = glyphs.map some ∧
      p.line lower = glyphs.flatten ++ "\n" ∧ glyphs.length = (Glyph.nonzeroBytes p.decrypted).length ∧
      (∀ g ∈ glyphs, g.points.length = 1) ∧
      (p.line lower).points.length + Text.meetings glyphs = (Glyph.nonzeroBytes p.decrypted).length + 1 := by
  have ha := accepted_of_ofValue hp
  refine ⟨ha.decryptSteps_eq lower, ha.encryptSteps_eq text, ha.verifySteps_eq text, p.length_trace p.decrypted,
    p.params.length_decryptChain p.chain, fun b _ => p.glyphs.lookup_byte b, p.glyphs.render lower p.decrypted,
    p.glyphs.lookups_eq lower p.decrypted, rfl, p.glyphs.length_render lower p.decrypted, ?_, ?_⟩
  · exact ha.glyphs.render_single lower p.decrypted
  · exact ha.glyphs.length_points_line lower p.decrypted

/-- A key with a word of 64 bits and a chain of two words, of whose decrypted bytes some are zero, some are in the table
and some past its end.  Of the eight code points for seven bytes and the line end two are lost where halves of a pair
meet. -/
theorem loaded_never_fails_pair :
    let p : Profile := ⟨⟨0xffffffffffffffff, 0, 1, 2⟩, [0x61588b3644, 0x747f7d1f82], 3, 0x9e38538a49,
      [" ", "A", [0xD83D], [0xDE00]]⟩
    ofValue "pair" (.record p.exactFields) = .ok p ∧
      p.decryptSteps true = .ok ([0x0041000203, 0x0203ff0001], "?😀😀?a\n") ∧ p.verifySteps "A" = .ok false ∧
      ∃ glyphs : List Text, glyphs.length = 7 ∧ (p.line true).points.length + Text.meetings glyphs = 7 + 1 := by
  intro p
  have hp : ofValue "pair" (.record p.exactFields) = .ok p :=
    ofValue_of_statedBy p.statedBy_exactFields
      ⟨by decide, by decide, by decide, by decide, by decide, ⟨by decide, by decide, by decide⟩⟩ "pair"
  obtain ⟨hdecrypt, -, hverify, -, -, -, glyphs, -, -, hlength, -, hpoints⟩ := loaded_never_fails hp "A" true
  have hwords : p.decrypted = [0x0041000203, 0x0203ff0001] := by decide +kernel
  have hbytes : (Glyph.nonzeroBytes p.decrypted).length = 7 := by decide +kernel
  have hline : p.line true = "?😀😀?a\n" := by decide +kernel
  have hrefuted : p.verify "A" = false := by decide +kernel
  rw [hbytes] at hlength hpoints
  rw [hwords, hline] at hdecrypt
  rw [hrefuted] at hverify
  exact ⟨hp, hdecrypt, hverify, glyphs, hlength, hpoints⟩

/-- A table that has the two halves of a pair: two bytes of the decrypted word are not zero, but the glyphs of the two
make one code point, and the line has two with its end. -/
theorem line_of_halves :
    let p : Profile := ⟨⟨0, 0, 0, 0⟩, [0x0102], 32, 0x9e38538a49, ["x", [0xD83D], [0xDE00]]⟩
    ofValue "halves" (.record p.exactFields) = .ok p ∧ (Glyph.nonzeroBytes p.decrypted).length + 1 = 3 ∧
      (p.line false).points.length = 2 := by
  intro p
  have hp : ofValue "halves" (.record p.exactFields) = .ok p :=
    ofValue_of_statedBy p.statedBy_exactFields
      ⟨by decide, by decide, by decide, by decide, by decide, ⟨by decide, by decide, by decide⟩⟩ "halves"
  exact ⟨hp, by decide +kernel, by decide +kernel⟩

end Profile
end GlyphChain
