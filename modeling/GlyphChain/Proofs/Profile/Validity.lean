import GlyphChain.Proofs.Profile.Faults
/-!
# Validity — the documents that are profiles, and what they are read as

A document is a profile exactly if each of its fields is as it should be (`ValidFields`); it is then read as the one
profile that holds what the fields say, with the defaults for what they leave away (`ParsedFrom`).  Any other document
is refused for its first fault.
-/
namespace GlyphChain

open Word (Fits storageBits)

namespace Profile

/-! ## The fields of a profile -/

/-- Fields that are all as they should be. -/
structure ValidFields (fields : List (Text × Value)) : Prop where
  rounds : Doc.field? fields "rounds" = none ∨ Doc.field? fields "rounds" = some .null ∨
    ∃ n, Doc.field? fields "rounds" = some (.number (.double n)) ∧ n.IsCount
  delta : Doc.field? fields "delta" = none ∨ ∃ v, Doc.field? fields "delta" = some v ∧ ∃ x, Word.Accepts v x
  key : ∃ vs, Doc.field? fields "key" = some (.list vs) ∧ (∀ v ∈ vs, ∃ x, Word.Accepts v x) ∧ vs.length = Key.length
  chain : ∃ vs, Doc.field? fields "chain" = some (.list vs) ∧ (∀ v ∈ vs, ∃ x, Word.Accepts v x) ∧ 0 < vs.length
  glyphs : Doc.field? fields "glyphs" = none ∨ ∃ vs, Doc.field? fields "glyphs" = some (.list vs) ∧
    0 < vs.length ∧ vs.length ≤ Glyph.maxLength ∧ ∀ v ∈ vs, Glyph.IsSingle v

/-! ## No faults -/

theorem wordFaults_eq_nil_iff (field : String) (v : Value) : wordFaults field v = [] ↔ ∃ x, Word.Accepts v x := by
  rw [← (blames_read field v).ok_iff]
  exact exists_congr fun x => Word.read_eq_ok_iff

theorem itemFaults_eq_nil_iff (field : String) (vs : List Value) :
    itemFaults field vs = [] ↔ ∀ v ∈ vs, ∃ x, Word.Accepts v x := by
  unfold itemFaults
  rw [List.flatMap_eq_nil_iff, ← forall_mem_zipIdx]
  exact forall₂_congr fun item _ => wordFaults_eq_nil_iff _ item.1

theorem entryFaults_eq_nil_iff (field : String) (vs : List Value) :
    entryFaults field vs = [] ↔ ∀ v ∈ vs, Glyph.IsSingle v := by
  unfold entryFaults
  rw [List.flatMap_eq_nil_iff, ← forall_mem_zipIdx]
  refine forall₂_congr fun item _ => ?_
  by_cases h : Glyph.IsSingle item.1 <;> simp [h]

theorem roundsFaults_eq_nil_iff (field : String) (v : Option Value) : roundsFaults field v = [] ↔
    v = none ∨ v = some .null ∨ ∃ n, v = some (.number (.double n)) ∧ n.IsCount := by
  match v with
  | none | some .null => simp [roundsFaults]
  | some (.number (.double n)) => by_cases h : n.IsCount <;> simp [roundsFaults, h]
  | some (.number (.exact _)) | some (.bool _) | some (.text _) | some (.list _) | some (.record _) =>
    simp [roundsFaults]

theorem deltaFaults_eq_nil_iff (field : String) (v : Option Value) : deltaFaults field v = [] ↔
    v = none ∨ ∃ w, v = some w ∧ ∃ x, Word.Accepts w x := by
  cases v with
  | none => simp [deltaFaults]
  | some v => simp [deltaFaults, wordFaults_eq_nil_iff]

theorem listFaults_eq_nil_iff (field : String) (lengthFaults : Nat → List Fault) (v : Option Value) :
    listFaults field lengthFaults v = [] ↔
      ∃ vs, v = some (.list vs) ∧ (∀ w ∈ vs, ∃ x, Word.Accepts w x) ∧ lengthFaults vs.length = [] := by
  match v with
  | some (.list vs) => simp [listFaults, itemFaults_eq_nil_iff]
  | none | some .null | some (.bool _) | some (.number _) | some (.text _) | some (.record _) => simp [listFaults]

theorem glyphFaults_eq_nil_iff (field : String) (v : Option Value) : glyphFaults field v = [] ↔
    v = none ∨ ∃ vs, v = some (.list vs) ∧ 0 < vs.length ∧ vs.length ≤ Glyph.maxLength ∧
      ∀ w ∈ vs, Glyph.IsSingle w := by
  match v with
  | some (.list vs) => simp [glyphFaults, entryFaults_eq_nil_iff, List.length_pos_iff]
  | none | some .null | some (.bool _) | some (.number _) | some (.text _) | some (.record _) => simp [glyphFaults]

/-- **The fields of a document are valid if it has no fault.** -/
theorem faults_record_eq_nil_iff (source : String) (fields : List (Text × Value)) :
    faults source (.record fields) = [] ↔ ValidFields fields := by
  unfold faults keyFaults chainFaults
  simp only [List.append_eq_nil_iff, roundsFaults_eq_nil_iff, deltaFaults_eq_nil_iff, listFaults_eq_nil_iff,
    glyphFaults_eq_nil_iff, ite_eq_left_iff, List.cons_ne_nil, imp_false, Decidable.not_not]
  constructor
  · rintro ⟨hrounds, hdelta, hkey, hchain, hglyphs⟩
    exact ⟨hrounds, hdelta, hkey, hchain, hglyphs⟩
  · rintro ⟨hrounds, hdelta, hkey, hchain, hglyphs⟩
    exact ⟨hrounds, hdelta, hkey, hchain, hglyphs⟩

theorem exists_ofValue_iff (source : String) (v : Value) :
    (∃ p, ofValue source v = .ok p) ↔ ∃ fields, v = .record fields ∧ ValidFields fields := by
  rw [(blames_ofValue source v).ok_iff]
  cases v with
  | record fields => simp [faults_record_eq_nil_iff]
  | _ => simp [faults]

/-! ## A fault that is never reported -/

theorem keyWord_not_mem_wordFaults (field : String) (v : Value) (place : String) (i : Nat) :
    Fault.keyWord place i ∉ wordFaults field v := by
  unfold wordFaults Word.read
  cases (Word.integer v).bind Word.inRange with
  | ok x => simp [Except.mapError]
  | error c => simp [Except.mapError]

theorem keyWord_not_mem_listFaults {field : String} {lengthFaults : Nat → List Fault} {place : String} {i : Nat}
    (h : ∀ n, Fault.keyWord place i ∉ lengthFaults n) (v : Option Value) :
    Fault.keyWord place i ∉ listFaults field lengthFaults v := by
  unfold listFaults
  split
  · next vs =>
    intro hmem
    rcases List.mem_append.1 hmem with hmem | hmem
    · obtain ⟨item, -, hitem⟩ := List.mem_flatMap.1 hmem
      exact keyWord_not_mem_wordFaults _ _ place i hitem
    · exact h _ hmem
  · simp

/-- **No document is refused for a key word with a sign**, since its words are read before the key is put together. -/
theorem keyWord_not_mem_faults (source : String) (v : Value) (place : String) (i : Nat) :
    Fault.keyWord place i ∉ faults source v := by
  cases v with
  | record fields =>
    simp only [faults, List.mem_append, not_or]
    refine ⟨?_, ?_, ?_, ?_, ?_⟩
    · unfold roundsFaults
      split
      · simp
      · simp
      · split <;> simp
      · simp
    · unfold deltaFaults
      split
      · simp
      · exact keyWord_not_mem_wordFaults _ _ place i
    · refine keyWord_not_mem_listFaults (fun n => ?_) _
      split <;> simp
    · refine keyWord_not_mem_listFaults (fun n => ?_) _
      split <;> simp
    · unfold glyphFaults entryFaults
      split
      · simp
      · simp only [List.mem_append, List.mem_flatMap, not_or, not_exists, not_and]
        refine ⟨⟨?_, ?_⟩, fun item _ => ?_⟩ <;> split <;> simp
      · simp
  | _ => simp [faults]

/-- **Reading a profile accepts exactly the valid documents, and blames the first fault of any other**: a value is read
if and only if it is a record with valid fields; the profile then holds what the fields say, so that the words of its
key and chain and its delta fit in storage; and what it is refused for is the head of the list of its faults, which is
never a key word with a sign. -/
theorem ofValue_accepts_valid_blames_first (source : String) (v : Value) :
    ((∃ p, ofValue source v = .ok p) ↔ ∃ fields, v = .record fields ∧ ValidFields fields) ∧
    (∀ p, ofValue source v = .ok p ↔ ∃ fields, v = .record fields ∧ p.ParsedFrom fields) ∧
    (∀ p, ofValue source v = .ok p → (∀ x ∈ p.key.words, Fits storageBits x) ∧
      (∀ x ∈ p.chain, Fits storageBits x) ∧ Fits storageBits p.delta) ∧
    (∀ f, ofValue source v = .error f ↔ (faults source v).head? = some f) ∧
    ∀ place i, ofValue source v ≠ .error (.keyWord place i) := by
  refine ⟨exists_ofValue_iff source v, fun p => ofValue_eq_ok_iff, ?_, (blames_ofValue source v).error_iff, ?_⟩
  · intro p hp
    have ha := accepted_of_ofValue hp
    exact ⟨ha.key, ha.chain, ha.delta⟩
  · intro place i h
    have hhead := ((blames_ofValue source v).error_iff _).1 h
    exact keyWord_not_mem_faults source v place i (List.mem_of_head? hhead)

/-- The reference profile, and a document with five faults: two bad words in a key of three, no word in the chain and an
entry of two code points. -/
theorem ofValue_accepts_valid_blames_first_mixed :
    let bad : Value := .record [("rounds", .null), ("key", .list [.number (.exact 7), .text " 0x_ ", .bool true]),
      ("chain", .list []), ("glyphs", .list [.text "ab"])]
    ValidFields reference.exactFields ∧ (faults "p" bad).length = 5 ∧
      ∃ f, ofValue "p" bad = .error f ∧ f.message = "InvalidWord: p.key[1] is not valid hex: 0x_" := by
  intro bad
  have hp := ofValue_of_statedBy reference.statedBy_exactFields accepted_reference "p"
  obtain ⟨fields, hfields, hvalid⟩ := (ofValue_accepts_valid_blames_first "p" _).1.1 ⟨_, hp⟩
  cases hfields
  have hbad := (ofValue_accepts_valid_blames_first "p" bad).2.2.2.1
    (.word (itemField (fieldOf "p" "key") 1) (.notHex "0x_"))
  refine ⟨hvalid, by decide +kernel, _, hbad.2 ?_, by decide +kernel⟩
  rfl

end Profile
end GlyphChain
