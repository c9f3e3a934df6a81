import GlyphChain.Profile.Location
import GlyphChain.Proofs.Document.Integer
import GlyphChain.Proofs.Profile.Validity
import GlyphChain.Proofs.Word.Grammar
/-!
# Precision — integers in a profile file are stored as they are written, or not at all

A file's numbers are read as the nearest doubles, so two integers may be read alike.  The readers of words and of rounds
take only safe integers, and no other integer is rounded to one of those; so whatever a profile stores for an integer of
its file is that integer (`Place.stored_of_parsedFrom`).  A document that is right everywhere else has the faults of the
value at that place and no more (`Place.faults_record_eq`).
-/
namespace GlyphChain

theorem Word.accepts_double_iff {n : Number} {x : Word} :
    Accepts (.number (.double n)) x ↔ n = .ofInt x ∧ 0 ≤ x ∧ x ≤ Number.maxSafe := by
  rw [← @read_eq_ok_iff "", read_eq_ok_iff_integer, integer_double_iff]
  constructor
  · rintro ⟨⟨hn, hsafe⟩, h0, -⟩
    exact ⟨hn, h0, (natAbs_le_maxSafe_iff h0).1 hsafe⟩
  · rintro ⟨hn, h0, hle⟩
    exact ⟨⟨hn, (natAbs_le_maxSafe_iff h0).2 hle⟩, fits_storage_iff.2 ⟨h0, Int.le_trans hle (by decide)⟩⟩

namespace Profile

/-- A place in a profile's document where a number is stored. -/
inductive Place
  | rounds
  | delta
  | key (i : Nat)
  | chain (i : Nat)

namespace Place

-- the field that a place is in, and its index if the field is a list
def name : Place → String
  | .rounds => "rounds"
  | .delta => "delta"
  | .key _ => "key"
  | .chain _ => "chain"

def index? : Place → Option Nat
  | .rounds | .delta => none
  | .key i | .chain i => some i

/-- What a document has at a place. -/
def item? {ν : Type} (fields : List (Text × Doc ν)) (place : Place) : Option (Doc ν) :=
  match place.index?, Doc.field? fields place.name with
  | none, d => d
  | some i, some (.list ds) => ds[i]?
  | some _, _ => none

/-- A document with something else at a place; the later of two fields counts. -/
def put {ν : Type} (d : Doc ν) (fields : List (Text × Doc ν)) (place : Place) : List (Text × Doc ν) :=
  match place.index?, Doc.field? fields place.name with
  | none, _ => fields ++ [(Text.ofString place.name, d)]
  | some i, some (.list ds) => fields ++ [(Text.ofString place.name, .list (ds.set i d))]
  | some _, _ => fields

/-- What a profile stores for a place. -/
def stored (p : Profile) : Place → Option Int
  | .rounds => some p.rounds
  | .delta => some p.delta
  | .key i => p.key.words[i]?
  | .chain i => p.chain[i]?

/-- How a fault names a place. -/
def field (source : String) (place : Place) : String :=
  match place.index? with
  | none => fieldOf source place.name
  | some i => itemField (fieldOf source place.name) i

/-- The faults of the value at a place. -/
def faults (source : String) (v : Value) : Place → List Fault
  | .rounds => roundsFaults (field source .rounds) (some v)
  | place => wordFaults (place.field source) v

/-- A fault of the number at a place. -/
def Blamed (source : String) (place : Place) (f : Fault) : Prop :=
  (∃ n, f = .rounds (place.field source) n) ∨ ∃ cause, f = .word (place.field source) cause

/-! ## What is stored -/

theorem forall₂_getElem? {vs : List Value} {xs : List Word} (h : List.Forall₂ Word.Accepts vs xs) :
    ∀ {i : Nat} {v : Value}, vs[i]? = some v → ∃ x, xs[i]? = some x ∧ Word.Accepts v x := by
  induction h with
  | nil => intro i v hv; simp at hv
  | cons hx _ ih =>
    intro i v hv
    cases i with
    | zero =>
      rw [List.getElem?_cons_zero, Option.some.injEq] at hv
      exact ⟨_, List.getElem?_cons_zero, hv ▸ hx⟩
    | succ i =>
      rw [List.getElem?_cons_succ] at hv ⊢
      exact ih hv

theorem item?_eq_some {ν : Type} {fields : List (Text × Doc ν)} {place : Place} {d : Doc ν} {i : Nat}
    (hi : place.index? = some i) (h : place.item? fields = some d) :
    ∃ ds, Doc.field? fields place.name = some (.list ds) ∧ ds[i]? = some d := by
  unfold item? at h
  rw [hi] at h
  split at h
  · next heq => cases heq
  · next heq hfield => cases heq; exact ⟨_, hfield, h⟩
  · cases h

theorem put_of_list {ν : Type} {fields : List (Text × Doc ν)} {place : Place} {d : Doc ν} {i : Nat} {ds : List (Doc ν)}
    (hi : place.index? = some i) (hfield : Doc.field? fields place.name = some (.list ds)) :
    place.put d fields = fields ++ [(Text.ofString place.name, .list (ds.set i d))] := by
  unfold put
  rw [hi, hfield]

theorem accepted_item {place : Place} {fields : List (Text × Value)} {n : Number} {i : Nat} {vs : List Value}
    {xs : List Word} (hitem : place.item? fields = some (.number (.double n))) (hi : place.index? = some i)
    (hvs : Doc.field? fields place.name = some (.list vs)) (haccepts : List.Forall₂ Word.Accepts vs xs) :
    ∃ x, xs[i]? = some x ∧ n = .ofInt x ∧ 0 ≤ x ∧ x ≤ Number.maxSafe := by
  obtain ⟨ds, hds, hd⟩ := item?_eq_some hi hitem
  rw [hds] at hvs
  cases hvs
  obtain ⟨x, hx, hnx⟩ := forall₂_getElem? haccepts hd
  exact ⟨x, hx, Word.accepts_double_iff.1 hnx⟩

/-- **A profile stores a safe integer for a double of its document, and that is the double.** -/
theorem stored_of_parsedFrom {p : Profile} {fields : List (Text × Value)} (h : p.ParsedFrom fields) {place : Place}
    {n : Number} (hitem : place.item? fields = some (.number (.double n))) :
    ∃ x, place.stored p = some x ∧ n = .ofInt x ∧ 0 ≤ x ∧ x ≤ Number.maxSafe := by
  cases place with
  | rounds =>
    have hfield : Doc.field? fields "rounds" = some (.number (.double n)) := hitem
    rcases h.rounds with ⟨hnone | hnull, -⟩ | ⟨hsome, hle⟩
    · rw [hnone] at hfield; cases hfield
    · rw [hnull] at hfield; cases hfield
    · rw [hfield] at hsome
      cases hsome
      exact ⟨p.rounds, rfl, rfl, Int.natCast_nonneg _, Int.ofNat_le.2 hle⟩
  | delta =>
    have hfield : Doc.field? fields "delta" = some (.number (.double n)) := hitem
    rcases h.delta with ⟨hnone, -⟩ | ⟨v, hv, haccepts⟩
    · rw [hnone] at hfield; cases hfield
    · rw [hfield] at hv
      cases hv
      exact ⟨p.delta, rfl, Word.accepts_double_iff.1 haccepts⟩
  | key i =>
    obtain ⟨vs, hvs, haccepts⟩ := h.key
    exact accepted_item hitem rfl hvs haccepts
  | chain i =>
    obtain ⟨vs, hvs, haccepts, -⟩ := h.chain
    exact accepted_item hitem rfl hvs haccepts

/-! ## What is refused -/

theorem itemFaults_of_set {field : String} {vs : List Value} {i : Nat} {v d : Value} (hv : vs[i]? = some v)
    (h : itemFaults field (vs.set i d) = []) : itemFaults field vs = wordFaults (itemField field i) v := by
  obtain ⟨hi, rfl⟩ := List.getElem?_eq_some_iff.1 hv
  have hsplit : vs = vs.take i ++ vs[i] :: vs.drop (i + 1) := by simp
  have hlen : (vs.take i).length = i := List.length_take_of_le (Nat.le_of_lt hi)
  rw [List.set_eq_take_append_cons_drop, if_pos hi] at h
  unfold itemFaults at h ⊢
  rw [List.zipIdx_append, List.zipIdx_cons, List.flatMap_append, List.flatMap_cons, List.append_eq_nil_iff,
    List.append_eq_nil_iff, hlen] at h
  obtain ⟨hbefore, -, hafter⟩ := h
  calc vs.zipIdx.flatMap (fun item => wordFaults (itemField field item.2) item.1)
      = (vs.take i ++ vs[i] :: vs.drop (i + 1)).zipIdx.flatMap
          (fun item => wordFaults (itemField field item.2) item.1) := by rw [← hsplit]
    _ = wordFaults (itemField field i) vs[i] := by
      rw [List.zipIdx_append, List.zipIdx_cons, List.flatMap_append, List.flatMap_cons, hlen, hbefore, hafter,
        List.nil_append, List.append_nil, Nat.zero_add]

theorem listFaults_of_set {field : String} {lengthFaults : Nat → List Fault} {vs : List Value} {i : Nat} {v d : Value}
    (hv : vs[i]? = some v) (h : listFaults field lengthFaults (some (.list (vs.set i d))) = []) :
    listFaults field lengthFaults (some (.list vs)) = wordFaults (itemField field i) v := by
  obtain ⟨hitems, hlength⟩ := List.append_eq_nil_iff.1 h
  rw [List.length_set] at hlength
  rw [listFaults, itemFaults_of_set hv hitems, hlength, List.append_nil]

/-- The faults of one field, by its name. -/
def fieldFaults (source name : String) (v : Option Value) : List Fault :=
  match name with
  | "rounds" => roundsFaults (fieldOf source "rounds") v
  | "delta" => deltaFaults (fieldOf source "delta") v
  | "key" => keyFaults (fieldOf source "key") v
  | "chain" => chainFaults (fieldOf source "chain") v
  | _ => glyphFaults (fieldOf source "glyphs") v

theorem faults_record (source : String) (fields : List (Text × Value)) : Profile.faults source (.record fields) =
    fieldNames.flatMap fun name => fieldFaults source name (Doc.field? fields name) := by
  simp [Profile.faults, fieldNames, fieldFaults]

theorem flatMap_eq_of_nil_elsewhere {name : String} {f : String → List Fault} : ∀ {names : List String}, names.Nodup →
    name ∈ names → (∀ other ∈ names, other ≠ name → f other = []) → names.flatMap f = f name
  | [], _, hname, _ => absurd hname List.not_mem_nil
  | first :: rest, hnodup, hname, h => by
    obtain ⟨hfirst, hrest⟩ := List.nodup_cons.1 hnodup
    rw [List.flatMap_cons]
    by_cases heq : first = name
    · have hnil : rest.flatMap f = [] := List.flatMap_eq_nil_iff.2 fun other hother =>
        h other (List.mem_cons_of_mem _ hother) (fun he => hfirst (heq ▸ he ▸ hother))
      rw [hnil, heq, List.append_nil]
    · have hmem : name ∈ rest := (List.mem_cons.1 hname).resolve_left (Ne.symm heq)
      rw [h first List.mem_cons_self heq, List.nil_append]
      exact flatMap_eq_of_nil_elsewhere hrest hmem fun other hother => h other (List.mem_cons_of_mem _ hother)

/-- **If a later field of the same name makes a document valid, only that field is at fault.** -/
theorem faults_of_append_valid {source name : String} {fields : List (Text × Value)} {d : Value}
    (hname : name ∈ fieldNames) (hvalid : ValidFields (fields ++ [(Text.ofString name, d)])) :
    Profile.faults source (.record fields) = fieldFaults source name (Doc.field? fields name) ∧
      fieldFaults source name (some d) = [] := by
  have hnil := (faults_record_eq_nil_iff source _).2 hvalid
  rw [faults_record, List.flatMap_eq_nil_iff] at hnil
  refine ⟨?_, ?_⟩
  · rw [faults_record]
    refine flatMap_eq_of_nil_elsewhere (by decide) hname fun other hother hne => ?_
    have := hnil other hother
    rwa [Doc.field?_concat, if_neg (Ne.symm hne)] at this
  · have := hnil name hname
    rwa [Doc.field?_concat, if_pos rfl] at this

theorem name_mem_fieldNames (place : Place) : place.name ∈ fieldNames := by
  cases place <;> simp [name, fieldNames]

theorem fieldFaults_list (source : String) {place : Place} {i : Nat} (hi : place.index? = some i) :
    ∃ lengthFaults, fieldFaults source place.name = listFaults (fieldOf source place.name) lengthFaults := by
  cases place with
  | rounds => cases hi
  | delta => cases hi
  | key _ => exact ⟨_, show keyFaults _ = _ by unfold keyFaults; rfl⟩
  | chain _ => exact ⟨_, show chainFaults _ = _ by unfold chainFaults; rfl⟩

theorem faults_of_list {source : String} {fields : List (Text × Value)} {place : Place} {v d : Value} {i : Nat}
    (hitem : place.item? fields = some v) (hvalid : ValidFields (place.put d fields)) (hi : place.index? = some i) :
    Profile.faults source (.record fields) = wordFaults (itemField (fieldOf source place.name) i) v := by
  obtain ⟨vs, hvs, hv⟩ := item?_eq_some hi hitem
  obtain ⟨_, hlist⟩ := fieldFaults_list source hi
  rw [put_of_list hi hvs] at hvalid
  obtain ⟨hfaults, hnil⟩ := faults_of_append_valid place.name_mem_fieldNames hvalid
  rw [hlist] at hnil
  rw [hfaults, hvs, hlist, listFaults_of_set hv hnil]

/-- **A document that is right everywhere else has the faults of the value at a place and no more.** -/
theorem faults_record_eq {source : String} {fields : List (Text × Value)} {place : Place} {v d : Value}
    (hitem : place.item? fields = some v) (hvalid : ValidFields (place.put d fields)) :
    Profile.faults source (.record fields) = place.faults source v := by
  have hname := place.name_mem_fieldNames
  cases place with
  | rounds =>
    have hfield : Doc.field? fields (name .rounds) = some v := hitem
    rw [(faults_of_append_valid hname hvalid).1, hfield]
    rfl
  | delta =>
    have hfield : Doc.field? fields (name .delta) = some v := hitem
    rw [(faults_of_append_valid hname hvalid).1, hfield]
    rfl
  | key i => exact faults_of_list hitem hvalid rfl
  | chain i => exact faults_of_list hitem hvalid rfl

theorem faults_double_eq_nil_iff (source : String) (place : Place) (n : Number) :
    place.faults source (.number (.double n)) = [] ↔ ∃ x : Int, n = .ofInt x ∧ 0 ≤ x ∧ x ≤ Number.maxSafe := by
  have hword : ∀ field, wordFaults field (.number (.double n)) = [] ↔
      ∃ x : Int, n = .ofInt x ∧ 0 ≤ x ∧ x ≤ Number.maxSafe := by
    intro field
    rw [wordFaults_eq_nil_iff]
    exact exists_congr fun x => Word.accepts_double_iff
  cases place with
  | rounds =>
    rw [faults, roundsFaults_eq_nil_iff]
    constructor
    · rintro (h | h | ⟨m, h, r, hr, rfl⟩)
      · cases h
      · cases h
      · cases h
        exact ⟨r, rfl, Int.natCast_nonneg r, Int.ofNat_le.2 hr⟩
    · rintro ⟨x, rfl, h0, hle⟩
      obtain ⟨r, rfl⟩ := Int.eq_ofNat_of_zero_le h0
      exact .inr (.inr ⟨_, rfl, r, Int.ofNat_le.1 hle, rfl⟩)
  | delta => exact hword _
  | key i => exact hword _
  | chain i => exact hword _

theorem blamed_of_mem_faults {source : String} {place : Place} {n : Number} {f : Fault}
    (h : f ∈ place.faults source (.number (.double n))) : place.Blamed source f := by
  have hword : ∀ field, f ∈ wordFaults field (.number (.double n)) → ∃ cause, f = .word field cause := by
    intro field hf
    unfold wordFaults at hf
    split at hf
    · cases hf
    · next g hg =>
      rw [List.mem_singleton] at hf
      exact hf ▸ Word.read_eq_error hg
  cases place with
  | rounds =>
    rw [faults, roundsFaults] at h
    split at h
    · cases h
    · exact .inl ⟨n, List.mem_singleton.1 h⟩
  | delta => exact .inr (hword _ h)
  | key i => exact .inr (hword _ h)
  | chain i => exact .inr (hword _ h)

end Place

/-! ## Files -/

/-- The fields of a written document as a program holds them. -/
def held (fields : List (Text × Doc Literal)) : List (Text × Value) :=
  Doc.mapFields (fun l => .double l.toNumber) fields

theorem Place.item?_held {fields : List (Text × Doc Literal)} {place : Place} {l : Literal}
    (h : place.item? fields = some (.number l)) : place.item? (held fields) = some (.number (.double l.toNumber)) := by
  cases hi : place.index? with
  | none =>
    have hfield : Doc.field? fields place.name = some (.number l) := by
      unfold item? at h
      rwa [hi] at h
    unfold item? held
    rw [hi, Doc.field?_mapFields, hfield]
    rfl
  | some i =>
    obtain ⟨ds, hds, hd⟩ := item?_eq_some hi h
    unfold item? held
    rw [hi, Doc.field?_mapFields, hds]
    show (Doc.mapItems _ ds)[i]? = _
    rw [Doc.mapItems_eq, List.getElem?_map, hd]
    rfl

theorem load_file {read : String → Except FileFault (List UInt8)} {path : String} {bytes : List UInt8}
    {fields : List (Text × Doc Literal)} (hread : read path = .ok bytes)
    (hdoc : Doc.read? (Utf8.decode bytes) = some (.record fields)) :
    (Location.file path).load read = ofValue path (.record (held fields)) := by
  simp only [Location.load, hread, ofBytes, hdoc]
  rfl

/-- **No integer of a profile file loses precision.**  Let an integer of any length be written in a file as the rounds, the
delta, a word of the key or a word of the chain.  If the file is read as a profile, the profile stores that very integer.
If nothing else is wrong with the document, so that it would be valid with something else in that place, then the file
is read, and the integer stored, exactly if it is at least 0 and at most 2^53 - 1; and any other integer is refused with
a fault that names the place. -/
theorem integers_stored_exactly {read : String → Except FileFault (List UInt8)} {path : String} {bytes : List UInt8}
    {fields : List (Text × Doc Literal)} (hread : read path = .ok bytes)
    (hdoc : Doc.read? (Utf8.decode bytes) = some (.record fields)) {cs : List Char} {z : Int} {l : Literal}
    (hz : Literal.Integer cs z) (hl : Literal.ofChars? cs = some l) {place : Place}
    (hplace : place.item? fields = some (.number l)) :
    (∀ p, (Location.file path).load read = .ok p → place.stored p = some z) ∧
    ((∃ d, ValidFields (place.put d (held fields))) →
      ((∃ p, (Location.file path).load read = .ok p ∧ place.stored p = some z) ↔ 0 ≤ z ∧ z ≤ Number.maxSafe) ∧
      (¬ (0 ≤ z ∧ z ≤ Number.maxSafe) → ∃ f, (Location.file path).load read = .error f ∧ place.Blamed path f)) := by
  have hload := load_file hread hdoc
  have hitem := Place.item?_held hplace
  have hstored : ∀ p, (Location.file path).load read = .ok p →
      place.stored p = some z ∧ 0 ≤ z ∧ z ≤ Number.maxSafe := by
    intro p hp
    rw [hload, ofValue_eq_ok_iff] at hp
    obtain ⟨_, hfields, hparsed⟩ := hp
    cases hfields
    obtain ⟨x, hx, hn, h0, hle⟩ := Place.stored_of_parsedFrom hparsed hitem
    obtain rfl := (hz.toNumber_eq_iff hl ((Word.natAbs_le_maxSafe_iff h0).2 hle)).1 hn
    exact ⟨hx, h0, hle⟩
  refine ⟨fun p hp => (hstored p hp).1, ?_⟩
  rintro ⟨d, hvalid⟩
  -- the faults of the document are those of the number at the place
  have hblames := blames_ofValue path (.record (held fields))
  rw [Place.faults_record_eq hitem hvalid, ← hload] at hblames
  refine ⟨⟨fun ⟨p, hp, _⟩ => (hstored p hp).2, fun hrange => ?_⟩, fun hrange => ?_⟩
  · have hsafe : l.toNumber = .ofInt z := (hz.toNumber_eq_iff hl ((Word.natAbs_le_maxSafe_iff hrange.1).2 hrange.2)).2 rfl
    obtain ⟨p, hp⟩ := hblames.ok_iff.2 ((Place.faults_double_eq_nil_iff path place _).2 ⟨z, hsafe, hrange⟩)
    exact ⟨p, hp, (hstored p hp).1⟩
  · cases hp : (Location.file path).load read with
    | ok p => exact absurd (hstored p hp).2 hrange
    | error f =>
      have hhead := (hblames.error_iff f).1 hp
      exact ⟨f, rfl, Place.blamed_of_mem_faults (List.mem_of_head? hhead)⟩

/-- The last safe integer as a word of the key, and in its place an odd integer beyond, which no double is. -/
theorem integers_stored_exactly_edges :
    let read : String → Except FileFault (List UInt8) := fun word =>
      .ok (("\x7b\"key\":[1,2,3," ++ word ++ "],\"chain\":[-0]\x7d").toList.map Char.toUInt8)
    (∃ p, (Location.file "9007199254740991").load read = .ok p ∧ (Place.key 3).stored p = some 9007199254740991) ∧
      ∃ f, (Location.file "9007199254740993").load read = .error f ∧ (Place.key 3).Blamed "9007199254740993" f := by
  intro read
  have hread : ∀ word, read word = .ok _ := fun word => rfl
  have hlast : Literal.Integer "9007199254740991".toList 9007199254740991 :=
    .plain ⟨by decide, by simp [Digits.IsDecimal], by decide⟩
  have hodd : Literal.Integer "9007199254740993".toList 9007199254740993 :=
    .plain ⟨by decide, by simp [Digits.IsDecimal], by decide⟩
  -- with the text `4` as the last word of the key nothing is wrong with either file
  refine ⟨((integers_stored_exactly (hread _) rfl hlast rfl rfl).2 ⟨.text "4", ?_⟩).1.2 ⟨by decide, by decide⟩,
    ((integers_stored_exactly (hread _) rfl hodd rfl rfl).2 ⟨.text "4", ?_⟩).2 (by decide)⟩
  · exact (faults_record_eq_nil_iff "" _).1 (by decide +kernel)
  · exact (faults_record_eq_nil_iff "" _).1 (by decide +kernel)

end Profile
end GlyphChain
