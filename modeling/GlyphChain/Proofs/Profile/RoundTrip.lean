import GlyphChain.Proofs.Profile.Verification
/-!
# RoundTrip — a text encrypted, printed, read back and decrypted

The words of an encrypted text are printed as lines of ten hexadecimal digits.  A document that states the cipher and
the table they were made with, and has these lines as its chain, is read as the profile with the encrypted words; the
text verifies against it, and it prints the text as the table can write it.
-/
namespace GlyphChain
namespace Profile

open Word (low blockBits Fits)

variable {p : Profile}

/-- The profile that holds a text in place of its own chain. -/
def holding (p : Profile) (text : Text) : Profile := { p with chain := p.encrypt text }

theorem length_encrypt (p : Profile) (text : Text) : (p.encrypt text).length = (text.points.length + 4) / 5 := by
  rw [encrypt, Cipher.Params.length_encryptChain, p.glyphs.length_encode]

theorem fits_encrypt (p : Profile) (text : Text) : ∀ w ∈ p.encrypt text, Fits blockBits w :=
  p.params.fits_encryptChain (p.glyphs.fits_encode text)

theorem Accepted.holding (ha : p.Accepted) {text : Text} (ht : text ≠ []) : (p.holding text).Accepted where
  rounds := ha.rounds
  delta := ha.delta
  key := ha.key
  nonempty := by
    have hpos : 0 < text.points.length := by
      refine List.length_pos_of_ne_nil (fun h => ht ?_)
      rw [← Text.flatten_points text, h]
      rfl
    have hlen := length_encrypt p text
    show 0 < (p.encrypt text).length
    omega
  chain := fun x hx => (fits_encrypt p text x hx).mono (by decide)
  glyphs := ha.glyphs

theorem CipherStatedBy.holding {fields : List (Text × Value)} (h : p.CipherStatedBy fields) {text : Text}
    (hchain : Doc.field? fields "chain" = some (.list ((p.encrypt text).map fun w => .text (Word.hex w)))) :
    (p.holding text).StatedBy fields where
  rounds := h.rounds
  delta := h.delta
  key := h.key
  glyphs := h.glyphs
  chain := ⟨_, hchain, Word.forall₂_spelling (fun _ => .hex _) (p.encrypt text)⟩

theorem verify_holding (p : Profile) (text : Text) : (p.holding text).verify text = true := by
  have h : (p.encrypt text).map (low blockBits) = p.encrypt text := Word.map_low_eq_self (fits_encrypt p text)
  exact decide_eq_true h.symm

theorem fits_decrypted_holding (p : Profile) (text : Text) : ∀ w ∈ (p.holding text).decrypted, Fits blockBits w :=
  p.params.fits_decryptChain (fits_encrypt p text)

/-- **A text comes back through the printed lines**: for a profile that was read and a text that is not empty, encrypting
prints one line for each five code points begun, each `0x` and ten hexadecimal digits in lower case; any document that
states the profile's key, rounds, delta and table and has these lines as its chain is read, the text verifies against
the profile it gives, and that profile prints the text as the table can write it. -/
theorem encrypted_lines_read_back {source : String} {v : Value} (hp : ofValue source v = .ok p) (text : Text)
    (ht : text ≠ []) :
    ((p.encrypt text).map Word.hex).length = (text.points.length + 4) / 5 ∧
    (∀ l ∈ (p.encrypt text).map Word.hex, ∃ ds, l.toList = '0' :: 'x' :: ds ∧ ds.length = 10 ∧
      ∀ c ∈ ds, ('0' ≤ c ∧ c ≤ '9') ∨ ('a' ≤ c ∧ c ≤ 'f')) ∧
    ∀ (fields : List (Text × Value)) (source' : String), p.CipherStatedBy fields →
      Doc.field? fields "chain" = some (.list ((p.encrypt text).map fun w => .text (Word.hex w))) →
      ∃ p', ofValue source' (.record fields) = .ok p' ∧ p'.verify text = true ∧
        p'.line false = p.glyphs.normalized text ++ "\n" := by
  have ha := accepted_of_ofValue hp
  refine ⟨by rw [List.length_map, length_encrypt], ?_, ?_⟩
  · intro l hl
    obtain ⟨w, hw, rfl⟩ := List.mem_map.1 hl
    exact Word.hex_digits (fits_encrypt p text w hw)
  · intro fields source' hdoc hchain
    exact ⟨p.holding text, ofValue_of_statedBy (hdoc.holding hchain) (ha.holding ht) source', verify_holding p text,
      line_of_verify ha.glyphs (fits_decrypted_holding p text) (verify_holding p text)⟩

/-- A text with a space, which the standard table has at place zero, and a letter that the table lacks. -/
theorem encrypted_lines_read_back_reference :
    let words := reference.encrypt "HELLO WORLd"
    let fields := reference.exactFields ++ [(Text.ofString "chain", .list (words.map fun w => .text (Word.hex w)))]
    ofValue "profile" (.record reference.exactFields) = .ok reference ∧ (words.map Word.hex).length = 3 ∧
      ∃ p', ofValue "again" (.record fields) = .ok p' ∧ p'.verify "HELLO WORLd" = true ∧
        p'.line false = "HELLOWORL‚\n" := by
  intro words fields
  have hp := ofValue_of_statedBy reference.statedBy_exactFields accepted_reference "profile"
  obtain ⟨hlen, -, hread⟩ := encrypted_lines_read_back hp "HELLO WORLd" (by decide)
  have hstated : reference.CipherStatedBy fields :=
    ⟨.inl rfl, .inl ⟨_, rfl, .exact⟩, ⟨_, rfl, Word.forall₂_spelling (fun _ => .exact) reference.key.words⟩, .inl rfl⟩
  obtain ⟨p', hok, hv, hline⟩ := hread _ "again" hstated rfl
  exact ⟨hp, hlen, p', hok, hv, hline.trans (by decide +kernel)⟩

end Profile
end GlyphChain
