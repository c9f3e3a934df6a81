import GlyphChain.Profile.Reader
import GlyphChain.Proofs.Glyph.Checked
import GlyphChain.Proofs.Word.Spelling
/-!
# Accepted — what a profile that was read looks like, and which documents state it

A document is read as a profile exactly if the profile holds what the document's fields say (`ofValue_eq_ok_iff`).  So a
profile that was read has a safe count of rounds, words that fit in storage, at least one word in its chain and a
checked table (`accepted_of_ofValue`); and a document that states such a profile, each word in any spelling and each
default spelled out or left away, is read as that profile (`ofValue_of_statedBy`).
-/
namespace GlyphChain
namespace Profile

open Word (Fits storageBits Spelling)

/-- What the checks leave of all profiles. -/
structure Accepted (p : Profile) : Prop where
  rounds : p.rounds ≤ Number.maxSafe
  delta : Fits storageBits p.delta
  key : ∀ x ∈ p.key.words, Fits storageBits x
  nonempty : 0 < p.chain.length
  chain : ∀ x ∈ p.chain, Fits storageBits x
  glyphs : p.glyphs.Checked

/-- The fields that a profile is read from. -/
def fieldNames : List String := ["rounds", "delta", "key", "chain", "glyphs"]

/-! ## What was read -/

/-- A profile that holds what the fields say, and the defaults for what they leave away. -/
structure ParsedFrom (p : Profile) (fields : List (Text × Value)) : Prop where
  rounds : (Doc.field? fields "rounds" = none ∨ Doc.field? fields "rounds" = some .null) ∧
      p.rounds = Cipher.defaultRounds ∨
    Doc.field? fields "rounds" = some (.number (.double (.ofInt p.rounds))) ∧ p.rounds ≤ Number.maxSafe
  delta : Doc.field? fields "delta" = none ∧ p.delta = Cipher.defaultDelta ∨
    ∃ v, Doc.field? fields "delta" = some v ∧ Word.Accepts v p.delta
  key : ∃ vs, Doc.field? fields "key" = some (.list vs) ∧ List.Forall₂ Word.Accepts vs p.key.words
  chain : ∃ vs, Doc.field? fields "chain" = some (.list vs) ∧ List.Forall₂ Word.Accepts vs p.chain ∧ 0 < vs.length
  glyphs : Doc.field? fields "glyphs" = none ∧ p.glyphs = Glyph.Table.standard ∨
    Doc.field? fields "glyphs" = some (.list (p.glyphs.map .text)) ∧ p.glyphs.Checked

theorem readRounds_eq_ok_iff {field : String} {v : Option Value} {r : Nat} : readRounds field v = .ok r ↔
    (v = none ∨ v = some .null) ∧ r = Cipher.defaultRounds ∨
      v = some (.number (.double (.ofInt r))) ∧ r ≤ Number.maxSafe := by
  constructor
  · intro h
    unfold readRounds at h
    split at h
    · cases h; exact .inl ⟨.inl rfl, rfl⟩
    · cases h; exact .inl ⟨.inr rfl, rfl⟩
    · rw [Rounds.eq_of_ofNumber h]
      exact .inr ⟨rfl, Rounds.le_of_ofNumber h⟩
    · cases h
  · rintro (⟨rfl | rfl, rfl⟩ | ⟨rfl, hr⟩)
    · rfl
    · rfl
    · exact Rounds.ofNumber_ofInt field hr

theorem readDelta_eq_ok_iff {field : String} {v : Option Value} {x : Word} : readDelta field v = .ok x ↔
    v = none ∧ x = Cipher.defaultDelta ∨ ∃ w, v = some w ∧ Word.Accepts w x := by
  cases v with
  | none => simp [readDelta, eq_comm]
  | some v => simp [readDelta, Word.read_eq_ok_iff]

theorem items_eq_ok {field : String} {v : Option Value} {vs : List Value} (h : items field v = .ok vs) :
    v = some (.list vs) := by
  unfold items at h
  split at h
  · cases h; rfl
  · cases h

theorem words_eq_ok_iff {field : String} {v : Option Value} {xs : List Word} : words field v = .ok xs ↔
    ∃ vs, v = some (.list vs) ∧ List.Forall₂ Word.Accepts vs xs := by
  constructor
  · intro h
    obtain ⟨vs, hvs, h⟩ := bind_eq_ok h
    exact ⟨vs, items_eq_ok hvs, (Word.readFrom_eq_ok_iff field vs 0 xs).1 h⟩
  · rintro ⟨vs, rfl, h⟩
    exact (Word.readFrom_eq_ok_iff field vs 0 xs).2 h

theorem readKey_eq_ok_iff {field : String} {v : Option Value} {key : Key} : readKey field v = .ok key ↔
    ∃ vs, v = some (.list vs) ∧ List.Forall₂ Word.Accepts vs key.words := by
  rw [← @words_eq_ok_iff field]
  constructor
  · intro h
    obtain ⟨ws, hws, h⟩ := bind_eq_ok h
    rw [Key.words_of_ofValues h, hws]
  · intro h
    rw [readKey, h, ok_bind]
    exact Key.ofValues_values field key

theorem checkChain_eq_ok {field : String} {ws out : List Word}
    (h : Cipher.checkChain field Cipher.leastWords ws = .ok out) : out = ws ∧ 0 < ws.length := by
  unfold Cipher.checkChain Cipher.leastWords at h
  rw [Number.exceeds_ofInt] at h
  split at h
  · cases h
  · next hlen =>
    cases h
    rw [decide_eq_true_eq] at hlen
    exact ⟨rfl, by omega⟩

theorem checkChain_of_pos {ws : List Word} (h : 0 < ws.length) (field : String) :
    Cipher.checkChain field Cipher.leastWords ws = .ok ws := by
  have hlen : Cipher.leastWords.exceeds ws.length = false := by
    rw [Cipher.leastWords, Number.exceeds_ofInt, decide_eq_false_iff_not]
    omega
  rw [Cipher.checkChain, hlen]
  exact if_neg Bool.false_ne_true

theorem readChain_eq_ok_iff {field : String} {v : Option Value} {ws : List Word} : readChain field v = .ok ws ↔
    ∃ vs, v = some (.list vs) ∧ List.Forall₂ Word.Accepts vs ws ∧ 0 < vs.length := by
  constructor
  · intro h
    obtain ⟨xs, hxs, h⟩ := bind_eq_ok h
    obtain ⟨rfl, hlen⟩ := checkChain_eq_ok h
    obtain ⟨vs, rfl, hvs⟩ := words_eq_ok_iff.1 hxs
    exact ⟨vs, rfl, hvs, hvs.length_eq ▸ hlen⟩
  · rintro ⟨vs, rfl, hvs, hlen⟩
    rw [readChain, words_eq_ok_iff.2 ⟨vs, rfl, hvs⟩, ok_bind, checkChain_of_pos (hvs.length_eq ▸ hlen)]

theorem readGlyphs_eq_ok_iff {field : String} {v : Option Value} {table : Glyph.Table} :
    readGlyphs field v = .ok table ↔
      v = none ∧ table = Glyph.Table.standard ∨ v = some (.list (table.map .text)) ∧ table.Checked := by
  constructor
  · intro h
    cases v with
    | none => cases h; exact .inl ⟨rfl, rfl⟩
    | some v =>
      obtain ⟨vs, hvs, h⟩ := bind_eq_ok h
      obtain ⟨rfl, htable⟩ := Glyph.Table.checked_of_ofValues h
      exact .inr ⟨items_eq_ok hvs, htable⟩
  · rintro (⟨rfl, rfl⟩ | ⟨rfl, htable⟩)
    · rfl
    · exact Glyph.Table.ofValues_map_text htable field

/-- **A document is read as a profile exactly if the profile holds what the document's fields say.** -/
theorem ofValue_eq_ok_iff {source : String} {v : Value} {p : Profile} :
    ofValue source v = .ok p ↔ ∃ fields, v = .record fields ∧ p.ParsedFrom fields := by
  constructor
  · intro h
    cases v with
    | record fields =>
      obtain ⟨rounds, hrounds, h⟩ := bind_eq_ok h
      obtain ⟨delta, hdelta, h⟩ := bind_eq_ok h
      obtain ⟨key, hkey, h⟩ := bind_eq_ok h
      obtain ⟨chain, hchain, h⟩ := bind_eq_ok h
      obtain ⟨glyphs, hglyphs, h⟩ := bind_eq_ok h
      cases h
      exact ⟨fields, rfl, readRounds_eq_ok_iff.1 hrounds, readDelta_eq_ok_iff.1 hdelta, readKey_eq_ok_iff.1 hkey,
        readChain_eq_ok_iff.1 hchain, readGlyphs_eq_ok_iff.1 hglyphs⟩
    | _ => cases h
  · rintro ⟨fields, rfl, h⟩
    rw [ofValue, readRounds_eq_ok_iff.2 h.rounds, readDelta_eq_ok_iff.2 h.delta, readKey_eq_ok_iff.2 h.key,
      readChain_eq_ok_iff.2 h.chain, readGlyphs_eq_ok_iff.2 h.glyphs]
    rfl

/-- **A profile that was read passed every check.** -/
theorem accepted_of_ofValue {source : String} {v : Value} {p : Profile} (h : ofValue source v = .ok p) : p.Accepted := by
  obtain ⟨fields, -, hrounds, hdelta, ⟨ks, -, hkey⟩, ⟨cs, -, hchain, hlen⟩, hglyphs⟩ := ofValue_eq_ok_iff.1 h
  refine ⟨?_, ?_, Word.fits_of_accepts hkey, hchain.length_eq ▸ hlen, Word.fits_of_accepts hchain, ?_⟩
  · rcases hrounds with ⟨-, hr⟩ | ⟨-, hr⟩
    · rw [hr]; decide
    · exact hr
  · rcases hdelta with ⟨-, hd⟩ | ⟨v, -, hv⟩
    · rw [hd]; decide
    · exact hv.fits
  · rcases hglyphs with ⟨-, hg⟩ | ⟨-, hg⟩
    · rw [hg]; exact Glyph.Table.checked_standard
    · exact hg

/-! ## What a document states -/

/-- The fields of a document that state all of a profile but its chain: each word in any spelling, and what is the
default also by leaving it away. -/
structure CipherStatedBy (p : Profile) (fields : List (Text × Value)) : Prop where
  rounds : Doc.field? fields "rounds" = some (.number (.double (.ofInt p.rounds))) ∨
    p.rounds = Cipher.defaultRounds ∧ (Doc.field? fields "rounds" = none ∨ Doc.field? fields "rounds" = some .null)
  delta : (∃ v, Doc.field? fields "delta" = some v ∧ Spelling p.delta v) ∨
    p.delta = Cipher.defaultDelta ∧ Doc.field? fields "delta" = none
  key : ∃ vs, Doc.field? fields "key" = some (.list vs) ∧ List.Forall₂ Spelling p.key.words vs
  glyphs : Doc.field? fields "glyphs" = some (.list (p.glyphs.map .text)) ∨
    p.glyphs = Glyph.Table.standard ∧ Doc.field? fields "glyphs" = none

/-- The fields of a document that state a profile. -/
structure StatedBy (p : Profile) (fields : List (Text × Value)) : Prop extends CipherStatedBy p fields where
  chain : ∃ vs, Doc.field? fields "chain" = some (.list vs) ∧ List.Forall₂ Spelling p.chain vs

variable {p : Profile} {fields : List (Text × Value)}

/-- **A document that states a profile which passes the checks is one that the profile is read from.** -/
theorem StatedBy.parsedFrom (h : p.StatedBy fields) (ha : p.Accepted) : p.ParsedFrom fields := by
  obtain ⟨ks, hks, hkey⟩ := h.key
  obtain ⟨cs, hcs, hchain⟩ := h.chain
  refine ⟨?_, ?_, ⟨ks, hks, Word.accepts_of_spelling hkey ha.key⟩,
    ⟨cs, hcs, Word.accepts_of_spelling hchain ha.chain, hchain.length_eq ▸ ha.nonempty⟩, ?_⟩
  · rcases h.rounds with hr | ⟨hd, hr⟩
    · exact .inr ⟨hr, ha.rounds⟩
    · exact .inl ⟨hr, hd⟩
  · rcases h.delta with ⟨v, hv, hspell⟩ | ⟨hd, hv⟩
    · exact .inr ⟨v, hv, hspell.accepts ha.delta⟩
    · exact .inl ⟨hv, hd⟩
  · rcases h.glyphs with hg | ⟨hd, hg⟩
    · exact .inr ⟨hg, ha.glyphs⟩
    · exact .inl ⟨hg, hd⟩

theorem ofValue_of_statedBy (h : p.StatedBy fields) (ha : p.Accepted) (source : String) :
    ofValue source (.record fields) = .ok p :=
  ofValue_eq_ok_iff.2 ⟨fields, rfl, h.parsedFrom ha⟩

/-- The fields that state a profile with exact integers for its words and nothing left away. -/
def exactFields (p : Profile) : List (Text × Value) :=
  [("rounds", .number (.double (.ofInt p.rounds))), ("delta", .number (.exact p.delta)), ("key", .list p.key.values),
   ("chain", .list (p.chain.map (fun x => .number (.exact x)))), ("glyphs", .list (p.glyphs.map .text))]

theorem statedBy_exactFields (p : Profile) : p.StatedBy p.exactFields where
  rounds := .inl rfl
  delta := .inl ⟨_, rfl, .exact⟩
  key := ⟨_, rfl, Word.forall₂_spelling (fun _ => .exact) p.key.words⟩
  chain := ⟨_, rfl, Word.forall₂_spelling (fun _ => .exact) p.chain⟩
  glyphs := .inl rfl

/-- **The profiles that can be read are those that pass the checks.** -/
theorem accepted_iff (source : String) (p : Profile) : p.Accepted ↔ ∃ v, ofValue source v = .ok p :=
  ⟨fun ha => ⟨_, ofValue_of_statedBy p.statedBy_exactFields ha source⟩, fun ⟨_, h⟩ => accepted_of_ofValue h⟩

theorem accepted_reference : reference.Accepted :=
  ⟨by decide, by decide, by decide, by decide, by decide, Glyph.Table.checked_standard⟩

end Profile
end GlyphChain
