import GlyphChain.Proofs.Profile.Accepted
/-!
# Faults — everything that is wrong with a document, in order

`faults` lists all faults of a document: those of each field whatever the other fields are like, the fields in a fixed
order, and inside a list the bad items by index.  Reading a document stops at the first of them: it succeeds if the
list is empty, and otherwise fails with its head (`blames_ofValue`).  So it is with a list of values that is to be a key
(`Key.blames_ofValues`); the words of a document are none with a sign, so of a key's faults only one is left to it.
-/
namespace GlyphChain

/-- A check goes by a list of faults: it passes if there is none, and else fails with the first. -/
def Blames {α : Type} (fs : List Fault) : Except Fault α → Prop
  | .ok _ => fs = []
  | .error f => fs.head? = some f

namespace Blames

variable {α β : Type} {fs gs : List Fault} {x : Except Fault α}

/-- **Two checks in a row go by their faults in a row.** -/
theorem bind {k : α → Except Fault β} (hx : Blames fs x) (hk : ∀ a, x = .ok a → Blames gs (k a)) :
    Blames (fs ++ gs) (x >>= k) := by
  cases x with
  | error f =>
    show (fs ++ gs).head? = some f
    rw [List.head?_append, show fs.head? = some f from hx, Option.some_or]
  | ok a =>
    rw [show fs = [] from hx, ok_bind]
    exact hk a rfl

theorem map (g : α → β) (hx : Blames fs x) : Blames fs (x.map g) := by
  cases x with
  | error f => exact hx
  | ok a => exact hx

theorem ok_iff (hx : Blames fs x) : (∃ a, x = .ok a) ↔ fs = [] := by
  cases x with
  | error f =>
    constructor
    · rintro ⟨a, ha⟩
      cases ha
    · rintro rfl
      cases hx
  | ok a => exact ⟨fun _ => hx, fun _ => ⟨a, rfl⟩⟩

theorem fails_iff (hx : Blames fs x) : (∃ f, x = .error f) ↔ fs ≠ [] := by
  rw [ne_eq, ← hx.ok_iff]
  cases x with
  | error f => simp
  | ok a => simp

theorem error_iff (hx : Blames fs x) (f : Fault) : x = .error f ↔ fs.head? = some f := by
  cases x with
  | error e =>
    rw [show fs.head? = some e from hx, Option.some.injEq, Except.error.injEq]
  | ok a =>
    rw [show fs = [] from hx]
    constructor <;> intro h <;> cases h

end Blames

/-! ## Counts and single code points -/

def Number.IsCount (n : Number) : Prop := ∃ r : Nat, r ≤ maxSafe ∧ n = .ofInt r

theorem Number.isCount_iff {n : Number} (field : String) : n.IsCount ↔ ∃ r, Rounds.ofNumber field n = .ok r := by
  constructor
  · rintro ⟨r, hr, rfl⟩
    exact ⟨r, Rounds.ofNumber_ofInt field hr⟩
  · rintro ⟨r, hr⟩
    exact ⟨r, Rounds.le_of_ofNumber hr, Rounds.eq_of_ofNumber hr⟩

instance (n : Number) : Decidable n.IsCount :=
  match h : Rounds.ofNumber "" n with
  | .ok r => isTrue ((Number.isCount_iff "").2 ⟨r, h⟩)
  | .error _ => isFalse (fun hn => by
    obtain ⟨r, hr⟩ := (Number.isCount_iff "").1 hn
    rw [hr] at h
    cases h)

def Glyph.IsSingle (v : Value) : Prop := ∃ g, v = .text g ∧ g.points.length = 1

theorem Glyph.isSingle_iff {v : Value} : IsSingle v ↔ ∃ g, single? v = some g := by
  constructor
  · rintro ⟨g, rfl, hg⟩
    exact ⟨g, if_pos hg⟩
  · rintro ⟨g, hg⟩
    exact ⟨g, single_eq_some hg⟩

instance (v : Value) : Decidable (Glyph.IsSingle v) :=
  decidable_of_iff ((Glyph.single? v).isSome = true) (Option.isSome_iff_exists.trans Glyph.isSingle_iff.symm)

theorem forall_mem_zipIdx (P : Value → Prop) (vs : List Value) : (∀ item ∈ vs.zipIdx, P item.1) ↔ ∀ v ∈ vs, P v := by
  rw [← List.forall_mem_map (P := P), List.zipIdx_map_fst]

/-! ## Keys -/

namespace Key

def IsWord (v : Value) : Prop := ∃ n : Nat, v = .number (.exact n)

theorem isWord_iff {v : Value} : IsWord v ↔ ∃ n, word? v = some n := by
  constructor
  · rintro ⟨n, rfl⟩
    exact ⟨n, rfl⟩
  · rintro ⟨n, hn⟩
    unfold word? at hn
    split at hn
    · next m => exact ⟨m, rfl⟩
    · cases hn

instance (v : Value) : Decidable (IsWord v) :=
  decidable_of_iff ((word? v).isSome = true) (Option.isSome_iff_exists.trans isWord_iff.symm)

/-- The faults of a list of values as a key: there are too few or too many, or else those that are no key words. -/
def faults (field : String) (vs : List Value) : List Fault :=
  if vs.length = length then vs.zipIdx.flatMap fun item => if IsWord item.1 then [] else [.keyWord field item.2]
  else [.keyLength field vs.length]

theorem faults_eq_nil_iff (field : String) (vs : List Value) :
    faults field vs = [] ↔ vs.length = length ∧ ∀ v ∈ vs, IsWord v := by
  unfold faults
  by_cases hlen : vs.length = length
  · rw [if_pos hlen, List.flatMap_eq_nil_iff, and_iff_right hlen, ← forall_mem_zipIdx]
    refine forall₂_congr fun item _ => ?_
    by_cases hv : IsWord item.1 <;> simp [hv]
  · simp [hlen]

/-- The key word at an index. -/
def wordAt (field : String) (i : Nat) (v : Value) : Except Fault Nat :=
  match word? v with
  | some n => .ok n
  | none => .error (.keyWord field i)

theorem blames_wordAt (field : String) (i : Nat) (v : Value) :
    Blames (if IsWord v then [] else [.keyWord field i]) (wordAt field i v) := by
  unfold wordAt
  by_cases hv : IsWord v
  · obtain ⟨n, hn⟩ := isWord_iff.1 hv
    rw [if_pos hv, hn]
    rfl
  · have hnone : word? v = none := Option.eq_none_iff_forall_ne_some.2 (fun n hn => hv (isWord_iff.2 ⟨n, hn⟩))
    rw [if_neg hv, hnone]
    rfl

theorem ofValues_four (field : String) (a b c d : Value) : ofValues field [a, b, c, d] = (do
    let k0 ← wordAt field 0 a
    let k1 ← wordAt field 1 b
    let k2 ← wordAt field 2 c
    let k3 ← wordAt field 3 d
    return ⟨k0, k1, k2, k3⟩) := by
  simp only [ofValues, wordAt]
  cases word? a <;> cases word? b <;> cases word? c <;> cases word? d <;> rfl

/-- **Values are put together as a key up to their first fault.** -/
theorem blames_ofValues (field : String) : ∀ vs : List Value, Blames (faults field vs) (ofValues field vs)
  | [] | [_] | [_, _] | [_, _, _] => rfl
  | _ :: _ :: _ :: _ :: _ :: _ => by simp [faults, length, ofValues, Blames]
  | [a, b, c, d] => by
    have hfaults : faults field [a, b, c, d] =
        (if IsWord a then [] else [.keyWord field 0]) ++ ((if IsWord b then [] else [.keyWord field 1]) ++
          ((if IsWord c then [] else [.keyWord field 2]) ++ if IsWord d then [] else [.keyWord field 3])) := by
      simp [faults, length, List.zipIdx]
    rw [hfaults, ofValues_four]
    refine (blames_wordAt field 0 a).bind (fun k0 _ => ?_)
    refine (blames_wordAt field 1 b).bind (fun k1 _ => ?_)
    refine (blames_wordAt field 2 c).bind (fun k2 _ => ?_)
    exact (blames_wordAt field 3 d).map (fun k3 => (⟨k0, k1, k2, k3⟩ : Key))

end Key

namespace Profile

/-! ## The faults of each field -/

def wordFaults (field : String) (v : Value) : List Fault :=
  match Word.read field v with
  | .ok _ => []
  | .error f => [f]

def itemFaults (field : String) (vs : List Value) : List Fault :=
  vs.zipIdx.flatMap fun item => wordFaults (itemField field item.2) item.1

def roundsFaults (field : String) : Option Value → List Fault
  | none | some .null => []
  | some (.number (.double n)) => if n.IsCount then [] else [.rounds field n]
  | some _ => [.shape field .notNumber]

def deltaFaults (field : String) : Option Value → List Fault
  | none => []
  | some v => wordFaults field v

/-- The faults of a list of words: it is no list, a word is bad, or there are too few or too many. -/
def listFaults (field : String) (lengthFaults : Nat → List Fault) : Option Value → List Fault
  | some (.list vs) => itemFaults field vs ++ lengthFaults vs.length
  | _ => [.shape field .notList]

def keyFaults (field : String) : Option Value → List Fault :=
  listFaults field fun n => if n = Key.length then [] else [.keyLength field n]

def chainFaults (field : String) : Option Value → List Fault :=
  listFaults field fun n => if 0 < n then [] else [.chainLength field Cipher.leastWords n]

def entryFaults (field : String) (vs : List Value) : List Fault :=
  vs.zipIdx.flatMap fun item => if Glyph.IsSingle item.1 then [] else [.table field (.entry item.2)]

def glyphFaults (field : String) : Option Value → List Fault
  | none => []
  | some (.list vs) =>
    (if 0 < vs.length then [] else [.table field .empty]) ++
    (if vs.length ≤ Glyph.maxLength then [] else [.table field (.tooLong vs.length)]) ++ entryFaults field vs
  | some _ => [.shape field .notList]

/-- All faults of a document: that it is no record, or those of rounds, delta, key, chain and glyphs. -/
def faults (source : String) : Value → List Fault
  | .record fields =>
    roundsFaults (fieldOf source "rounds") (Doc.field? fields "rounds") ++
    (deltaFaults (fieldOf source "delta") (Doc.field? fields "delta") ++
    (keyFaults (fieldOf source "key") (Doc.field? fields "key") ++
    (chainFaults (fieldOf source "chain") (Doc.field? fields "chain") ++
    glyphFaults (fieldOf source "glyphs") (Doc.field? fields "glyphs"))))
  | _ => [.shape source .notRecord]

/-! ## Each reader stops at the first fault of its field -/

theorem blames_read (field : String) (v : Value) : Blames (wordFaults field v) (Word.read field v) := by
  unfold wordFaults
  split
  · next h => rw [h]; rfl
  · next h => rw [h]; rfl

theorem blames_readFrom (field : String) : ∀ (vs : List Value) (i : Nat),
    Blames ((vs.zipIdx i).flatMap fun item => wordFaults (itemField field item.2) item.1) (Word.readFrom field i vs)
  | [], _ => rfl
  | v :: vs, i => by
    rw [List.zipIdx_cons, List.flatMap_cons, Word.readFrom]
    refine (blames_read (itemField field i) v).bind (fun x _ => ?_)
    exact (blames_readFrom field vs (i + 1)).map (x :: ·)

theorem blames_ofNumber (field : String) (n : Number) :
    Blames (if n.IsCount then [] else [.rounds field n]) (Rounds.ofNumber field n) := by
  by_cases hn : n.IsCount
  · obtain ⟨r, hr⟩ := (Number.isCount_iff field).1 hn
    rw [if_pos hn, hr]
    rfl
  · rw [if_neg hn]
    cases hr : Rounds.ofNumber field n with
    | ok r => exact absurd ((Number.isCount_iff field).2 ⟨r, hr⟩) hn
    | error f =>
      unfold Rounds.ofNumber at hr
      split at hr
      · cases hr
      · cases hr; rfl

theorem blames_readRounds (field : String) (v : Option Value) :
    Blames (roundsFaults field v) (readRounds field v) := by
  match v with
  | none | some .null => rfl
  | some (.number (.double n)) => exact blames_ofNumber field n
  | some (.number (.exact _)) | some (.bool _) | some (.text _) | some (.list _) | some (.record _) => rfl

theorem blames_readDelta (field : String) (v : Option Value) : Blames (deltaFaults field v) (readDelta field v) := by
  cases v with
  | none => rfl
  | some v => exact blames_read field v

/-- **A list of words read and then checked for its length stops at the first fault of the list.** -/
theorem blames_words_bind {α : Type} {field : String} {lengthFaults : Nat → List Fault}
    {check : List Word → Except Fault α} (v : Option Value)
    (hcheck : ∀ ws, (∀ x ∈ ws, Word.Fits Word.storageBits x) → Blames (lengthFaults ws.length) (check ws)) :
    Blames (listFaults field lengthFaults v) (words field v >>= check) := by
  unfold listFaults
  split
  · next vs =>
    show Blames _ (Word.readFrom field 0 vs >>= check)
    refine (blames_readFrom field vs 0).bind (fun ws hws => ?_)
    have haccepts := (Word.readFrom_eq_ok_iff field vs 0 ws).1 hws
    -- the words read are as many as the values, so a fault in their number is one in that of the values
    rw [haccepts.length_eq]
    exact hcheck ws (Word.fits_of_accepts haccepts)
  · next hv =>
    have hitems : items field v = .error (.shape field .notList) := by
      unfold items
      split
      · next vs => exact absurd rfl (hv vs)
      · rfl
    rw [words, hitems]
    rfl

/-- **Words of storage are refused as a key for their number only.** -/
theorem blames_keyOfValues (field : String) {ws : List Word} (h : ∀ x ∈ ws, Word.Fits Word.storageBits x) :
    Blames (if ws.length = Key.length then [] else [.keyLength field ws.length])
      (Key.ofValues field (ws.map (fun x => .number (.exact x)))) := by
  have hwords : ∀ v ∈ ws.map (fun x => (.number (.exact x) : Value)), Key.IsWord v := by
    intro v hv
    obtain ⟨x, hx, rfl⟩ := List.mem_map.1 hv
    obtain ⟨n, rfl⟩ := Int.eq_ofNat_of_zero_le (h x hx).1
    exact ⟨n, rfl⟩
  have hblames := Key.blames_ofValues field (ws.map (fun x => .number (.exact x)))
  by_cases hlen : ws.length = Key.length
  · rw [(Key.faults_eq_nil_iff field _).2 ⟨by rw [List.length_map, hlen], hwords⟩] at hblames
    rw [if_pos hlen]
    exact hblames
  · rw [Key.faults, List.length_map, if_neg hlen] at hblames
    rw [if_neg hlen]
    exact hblames

theorem blames_readKey (field : String) (v : Option Value) : Blames (keyFaults field v) (readKey field v) :=
  blames_words_bind v (fun _ => blames_keyOfValues field)

theorem blames_readChain (field : String) (v : Option Value) : Blames (chainFaults field v) (readChain field v) := by
  refine blames_words_bind v (fun ws _ => ?_)
  by_cases hlen : 0 < ws.length
  · rw [if_pos hlen, checkChain_of_pos hlen]
    rfl
  · rw [if_neg hlen]
    have hshort : Cipher.leastWords.exceeds ws.length = true := by
      rw [Cipher.leastWords, Number.exceeds_ofInt, decide_eq_true_eq]
      omega
    rw [Cipher.checkChain, if_pos hshort]
    rfl

theorem blames_singlesFrom (field : String) : ∀ (vs : List Value) (i : Nat),
    Blames ((vs.zipIdx i).flatMap fun item => if Glyph.IsSingle item.1 then [] else [.table field (.entry item.2)])
      ((Glyph.singlesFrom i vs).mapError (.table field))
  | [], _ => rfl
  | v :: vs, i => by
    rw [List.zipIdx_cons, List.flatMap_cons, Glyph.singlesFrom]
    have ih := blames_singlesFrom field vs (i + 1)
    cases hv : Glyph.single? v with
    | none =>
      have hbad : ¬ Glyph.IsSingle v := by
        intro h
        obtain ⟨g, hg⟩ := Glyph.isSingle_iff.1 h
        rw [hv] at hg
        cases hg
      rw [if_neg hbad]
      rfl
    | some g =>
      rw [if_pos (Glyph.isSingle_iff.2 ⟨g, hv⟩), List.nil_append]
      cases hrest : Glyph.singlesFrom (i + 1) vs with
      | ok rest => rw [hrest] at ih; exact ih
      | error e => rw [hrest] at ih; exact ih

theorem blames_tableOfValues (field : String) (vs : List Value) :
    Blames ((if 0 < vs.length then [] else [.table field .empty]) ++
      (if vs.length ≤ Glyph.maxLength then [] else [.table field (.tooLong vs.length)]) ++ entryFaults field vs)
      (Glyph.Table.ofValues field vs) := by
  by_cases hne : 0 < vs.length
  · have hfull : ¬ vs.isEmpty = true := fun h => Nat.ne_of_gt hne (List.length_eq_zero_iff.2 (List.isEmpty_iff.1 h))
    rw [if_pos hne, List.nil_append, Glyph.Table.ofValues, if_neg hfull]
    by_cases hlen : vs.length ≤ Glyph.maxLength
    · rw [if_pos hlen, if_neg (Nat.not_lt.2 hlen)]
      exact blames_singlesFrom field vs 0
    · rw [if_neg hlen, if_pos (Nat.not_le.1 hlen)]
      rfl
  · obtain rfl : vs = [] := List.length_eq_zero_iff.1 (by omega)
    rfl

theorem blames_readGlyphs (field : String) (v : Option Value) : Blames (glyphFaults field v) (readGlyphs field v) := by
  match v with
  | some (.list vs) => exact blames_tableOfValues field vs
  | none | some .null | some (.bool _) | some (.number _) | some (.text _) | some (.record _) => rfl

/-- **Reading a document stops at its first fault.** -/
theorem blames_ofValue (source : String) (v : Value) : Blames (faults source v) (ofValue source v) := by
  cases v with
  | record fields =>
    refine (blames_readRounds _ _).bind (fun rounds _ => ?_)
    refine (blames_readDelta _ _).bind (fun delta _ => ?_)
    refine (blames_readKey _ _).bind (fun key _ => ?_)
    refine (blames_readChain _ _).bind (fun chain _ => ?_)
    exact (blames_readGlyphs _ _).map (fun glyphs => (⟨key, chain, rounds, delta, glyphs⟩ : Profile))
  | _ => rfl

end Profile
end GlyphChain
