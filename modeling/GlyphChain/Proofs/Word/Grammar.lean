import GlyphChain.Proofs.Text.Grammar
import GlyphChain.Proofs.Word.Spelling
/-!
# Grammar — the values that are words, and the words they are

A text between blanks is a word if it has one of two written forms, hexadecimal or decimal, and its positional value fits
in storage (`spelled_eq_ok_iff`).  A double is one if it is a safe integer without a sign, an exact integer if it fits,
and nothing else is.  What is refused is always refused as a word, at the place it was read from (`read_eq_error`).
-/
namespace GlyphChain
namespace Word

open Digits (IsDecimal IsHex positional)
open Text (Trimmed blankUnit)

/-- The written forms of a number: `0x` or `0X` and hexadecimal digits, at least one, with underscores anywhere among
them; or decimal digits, at least one, and nothing else. -/
inductive Grammar : List Char → Nat → Prop
  | hex {x : Char} {ds : List Char} (letter : x = 'x' ∨ x = 'X') (digits : ∀ c ∈ ds, IsHex c ∨ c = '_')
      (digit : ∃ c ∈ ds, IsHex c) : Grammar ('0' :: x :: ds) (positional 16 (ds.filter (· != '_')))
  | decimal {ds : List Char} (nonempty : ds ≠ []) (digits : ∀ c ∈ ds, IsDecimal c) : Grammar ds (positional 10 ds)

/-! ## The text between the blanks -/

theorem not_isHex_underscore : ¬ IsHex '_' := by decide

theorem forall_filter_isHex {ds : List Char} :
    (∀ c ∈ ds.filter (· != '_'), IsHex c) ↔ ∀ c ∈ ds, IsHex c ∨ c = '_' := by
  simp only [List.mem_filter, bne_iff_ne, ne_eq, and_imp]
  refine forall₂_congr fun c _ => ?_
  rw [or_comm, or_iff_not_imp_left]

theorem filter_ne_nil_iff {ds : List Char} (h : ∀ c ∈ ds, IsHex c ∨ c = '_') :
    ds.filter (· != '_') ≠ [] ↔ ∃ c ∈ ds, IsHex c := by
  constructor
  · intro hne
    obtain ⟨c, hc⟩ := List.exists_mem_of_ne_nil _ hne
    exact ⟨c, (List.mem_filter.1 hc).1, forall_filter_isHex.2 h c hc⟩
  · rintro ⟨c, hc, hhex⟩
    refine List.ne_nil_of_mem (List.mem_filter.2 ⟨hc, ?_⟩)
    rw [bne_iff_ne]
    rintro rfl
    exact not_isHex_underscore hhex

theorem read?_hex_iff {ds : List Char} {n : Nat} : Digits.read? 16 (ds.filter (· != '_')) = some n ↔
    (∀ c ∈ ds, IsHex c ∨ c = '_') ∧ (∃ c ∈ ds, IsHex c) ∧ n = positional 16 (ds.filter (· != '_')) := by
  rw [Digits.read?_eq_some_iff Digits.digit?_sixteen, forall_filter_isHex]
  constructor
  · rintro ⟨hne, hall, hn⟩
    exact ⟨hall, (filter_ne_nil_iff hall).1 hne, hn⟩
  · rintro ⟨hall, hsome, hn⟩
    exact ⟨(filter_ne_nil_iff hall).2 hsome, hall, hn⟩

theorem grammar_of_spelled {raw : Text} {x : Word} (h : spelled raw = .ok x) :
    ∃ n : Nat, Grammar raw.chars n ∧ x = n := by
  unfold spelled at h
  split at h
  · cases h
  · next ds hraw =>
    rw [hraw]
    split at h
    · next n hn =>
      cases h
      obtain ⟨hall, hsome, rfl⟩ := read?_hex_iff.1 hn
      exact ⟨_, .hex (.inl rfl) hall hsome, rfl⟩
    · cases h
  · next ds hraw =>
    rw [hraw]
    split at h
    · next n hn =>
      cases h
      obtain ⟨hall, hsome, rfl⟩ := read?_hex_iff.1 hn
      exact ⟨_, .hex (.inr rfl) hall hsome, rfl⟩
    · cases h
  · split at h
    · next n hn =>
      cases h
      obtain ⟨hne, hall, rfl⟩ := (Digits.read?_eq_some_iff Digits.digit?_ten raw.chars n).1 hn
      exact ⟨_, .decimal hne hall, rfl⟩
    · cases h

theorem Grammar.spelled_eq {raw : Text} {cs : List Char} {n : Nat} (h : Grammar cs n) (hraw : raw.chars = cs) :
    spelled raw = .ok (n : Word) := by
  cases h with
  | hex letter digits digit =>
    have hread := read?_hex_iff.2 ⟨digits, digit, rfl⟩
    rcases letter with rfl | rfl
    · simp only [spelled, hraw, hread]
    · simp only [spelled, hraw, hread]
  | decimal nonempty digits =>
    have hread := (Digits.read?_eq_some_iff Digits.digit?_ten cs _).2 ⟨nonempty, digits, rfl⟩
    -- a run of decimal digits has no letter at its second place
    unfold spelled
    rw [hraw]
    split
    · exact absurd rfl nonempty
    · exact absurd (digits 'x' (by simp)) (by decide)
    · exact absurd (digits 'X' (by simp)) (by decide)
    · rw [hread]

/-- **A trimmed text stands for a number if it has one of the two written forms, and then for its value.** -/
theorem spelled_eq_ok_iff {raw : Text} {x : Word} :
    spelled raw = .ok x ↔ ∃ n : Nat, Grammar raw.chars n ∧ x = n := by
  constructor
  · exact grammar_of_spelled
  · rintro ⟨n, h, rfl⟩
    exact h.spelled_eq rfl

/-- **The characters of a written form are ASCII ones**, so that they are the units of their text. -/
theorem Grammar.ascii {cs : List Char} {n : Nat} (h : Grammar cs n) : ∀ c ∈ cs, c ≠ '\x00' ∧ c.toNat < 128 := by
  have hhex : ∀ c, IsHex c → c ≠ '\x00' ∧ c.toNat < 128 := by
    intro c hc
    refine ⟨?_, Digits.toNat_lt_of_isHex hc⟩
    rintro rfl
    exact absurd hc (by decide)
  cases h with
  | hex letter digits digit =>
    refine List.forall_mem_cons.2 ⟨by decide, List.forall_mem_cons.2 ⟨?_, fun c hc => ?_⟩⟩
    · rcases letter with rfl | rfl <;> decide
    · rcases digits c hc with hc | rfl
      · exact hhex c hc
      · decide
  | decimal nonempty digits => exact fun c hc => hhex c (.inl (digits c hc))

/-! ## Values of every kind -/

theorem fits_storage_iff {x : Word} : Fits storageBits x ↔ 0 ≤ x ∧ x ≤ 0xffffffffffffffff :=
  and_congr_right fun _ => Int.lt_add_one_iff (b := 0xffffffffffffffff)

theorem natAbs_le_maxSafe_iff {x : Int} (h : 0 ≤ x) : x.natAbs ≤ Number.maxSafe ↔ x ≤ Number.maxSafe := by
  omega

theorem integer_text_iff {s : Text} {x : Word} : integer (.text s) = .ok x ↔
    ∃ (raw : List Char) (n : Nat), Trimmed blankUnit s (Text.ofChars raw) ∧ Grammar raw n ∧ x = n := by
  rw [integer, spelled_eq_ok_iff]
  constructor
  · rintro ⟨n, h, hx⟩
    refine ⟨_, n, ?_, h, hx⟩
    rw [Text.ofChars_chars fun c hc => (h.ascii c hc).1]
    exact Text.trimmed_strip blankUnit s
  · rintro ⟨raw, n, hraw, h, hx⟩
    refine ⟨n, ?_, hx⟩
    rw [Text.trim, hraw.strip_eq, Text.chars_ofChars fun c hc => Nat.lt_trans (h.ascii c hc).2 (by decide)]
    exact h

theorem integer_double_iff {n : Number} {x : Word} :
    integer (.number (.double n)) = .ok x ↔ n = .ofInt x ∧ x.natAbs ≤ Number.maxSafe := by
  rw [integer]
  constructor
  · intro h
    split at h
    · next y hy =>
      cases h
      obtain ⟨hint, hsafe⟩ := Option.filter_eq_some_iff.1 hy
      exact ⟨Number.toInt?_eq_some hint, by simpa using hsafe⟩
    · cases h
  · rintro ⟨rfl, hsafe⟩
    rw [Number.toSafe?_ofInt hsafe]

theorem read_other {v : Value} (htext : ∀ s, v ≠ .text s) (hnumber : ∀ n, v ≠ .number n) (field : String) :
    read field v = .error (.word field .wrongKind) := by
  cases v with
  | text s => exact absurd rfl (htext s)
  | number n => exact absurd rfl (hnumber n)
  | _ => rfl

theorem read_eq_error {field : String} {v : Value} {f : Fault} (h : read field v = .error f) :
    ∃ cause, f = .word field cause := by
  unfold read at h
  cases hv : (integer v).bind inRange with
  | ok x => rw [hv] at h; cases h
  | error cause => rw [hv] at h; cases h; exact ⟨cause, rfl⟩

/-- **Reading a word accepts exactly its grammar and gives its value**, whatever the name of the place.  A text is read if
what stands between the blanks around it has one of the written forms and a value below 2^64, which is then the word;
a double if it is a safe integer of at least zero, an exact integer if it is at least zero and below 2^64, each as
itself; and no value of another kind is.  Whatever is refused is refused as a word, under the label of one. -/
theorem read_accepts_grammar (field : String) :
    (∀ (s : Text) (x : Word), read field (.text s) = .ok x ↔ ∃ (raw : List Char) (n : Nat),
      Trimmed blankUnit s (Text.ofChars raw) ∧ Grammar raw n ∧ n ≤ 0xffffffffffffffff ∧ x = n) ∧
    (∀ (n : Number) (x : Word), read field (.number (.double n)) = .ok x ↔
      n = .ofInt x ∧ 0 ≤ x ∧ x ≤ Number.maxSafe) ∧
    (∀ y x : Word, read field (.number (.exact y)) = .ok x ↔ x = y ∧ 0 ≤ y ∧ y ≤ 0xffffffffffffffff) ∧
    (∀ v : Value, (∀ s, v ≠ .text s) → (∀ n, v ≠ .number n) → read field v = .error (.word field .wrongKind)) ∧
    ∀ (v : Value) (f : Fault), read field v = .error f →
      f.label = "InvalidWord" ∧ ∃ cause : WordFault, f.detail = Text.ofString field ++ cause.detail := by
  refine ⟨fun s x => ?_, fun n x => ?_, fun y x => ?_, fun v htext hnumber => ?_, fun v f h => ?_⟩
  · rw [read_eq_ok_iff_integer, integer_text_iff, fits_storage_iff]
    constructor
    · rintro ⟨⟨raw, n, hraw, h, rfl⟩, -, hle⟩
      exact ⟨raw, n, hraw, h, Int.ofNat_le.1 hle, rfl⟩
    · rintro ⟨raw, n, hraw, h, hle, rfl⟩
      exact ⟨⟨raw, n, hraw, h, rfl⟩, Int.natCast_nonneg n, Int.ofNat_le.2 hle⟩
  · rw [read_eq_ok_iff_integer, integer_double_iff]
    constructor
    · rintro ⟨⟨hn, hsafe⟩, h0, -⟩
      exact ⟨hn, h0, (natAbs_le_maxSafe_iff h0).1 hsafe⟩
    · rintro ⟨hn, h0, hle⟩
      exact ⟨⟨hn, (natAbs_le_maxSafe_iff h0).2 hle⟩, fits_storage_iff.2 ⟨h0, Int.le_trans hle (by decide)⟩⟩
  · rw [read_eq_ok_iff_integer, integer, fits_storage_iff, Except.ok.injEq, eq_comm]
    constructor
    · rintro ⟨rfl, h⟩
      exact ⟨rfl, h⟩
    · rintro ⟨rfl, h⟩
      exact ⟨rfl, h⟩
  · exact read_other htext hnumber field
  · obtain ⟨cause, rfl⟩ := read_eq_error h
    exact ⟨rfl, cause, rfl⟩

/-- A capital `X`, digits of both cases and underscores between three kinds of blanks; a truth value; and 2^64 with zeros
before it. -/
theorem read_accepts_grammar_edges :
    read "w" (.text "\uFEFF 0X_fF_0\u3000") = .ok 0xff0 ∧ read "w" (.bool true) = .error (.word "w" .wrongKind) ∧
      ∃ f, read "w" (.text "0018446744073709551616") = .error f ∧ f.label = "InvalidWord" := by
  obtain ⟨htext, -, -, hother, herror⟩ := read_accepts_grammar "w"
  have htrimmed : Trimmed blankUnit "\uFEFF 0X_fF_0\u3000" (Text.ofChars ['0', 'X', '_', 'f', 'F', '_', '0']) :=
    Text.trimmed_iff.2 (by decide +kernel)
  have hdigits : ∀ c ∈ ['_', 'f', 'F', '_', '0'], IsHex c ∨ c = '_' := by
    simp only [List.forall_mem_cons, List.not_mem_nil, false_imp_iff, implies_true, and_true]
    decide
  have hgrammar : Grammar ['0', 'X', '_', 'f', 'F', '_', '0'] 0xff0 := .hex (.inr rfl) hdigits ⟨'f', by simp, by decide⟩
  have hread := (htext _ _).2 ⟨_, _, htrimmed, hgrammar, by decide, rfl⟩
  have hbool := hother (.bool true) (fun _ h => by cases h) (fun _ h => by cases h)
  have hbad : read "w" (.text "0018446744073709551616") = .error (.word "w" (.outOfRange 0x10000000000000000)) := rfl
  exact ⟨hread, hbool, _, hbad, (herror _ _ hbad).1⟩

end Word
end GlyphChain
