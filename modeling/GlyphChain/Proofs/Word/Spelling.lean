import GlyphChain.Proofs.Cipher.Accepted
import GlyphChain.Proofs.Text.Numeral
import GlyphChain.Word.Reader
import GlyphChain.Word.Written
import Mathlib.Data.List.Forall2
/-!
# Spelling — the written forms of a word

A word can be stated as an exact integer, as a double while it is safe, in hexadecimal with any number of places, or in
decimal.  Every spelling of a word that fits in storage is read back as that word (`Spelling.accepts`), and a list of
values is read item by item (`readFrom_eq_ok_iff`).  A word of 40 bits takes exactly ten hexadecimal digits
(`hex_digits`).
-/
namespace GlyphChain
namespace Word

/-- The values that spell a word out. -/
inductive Spelling (x : Word) : Value → Prop
  | exact : Spelling x (.number (.exact x))
  | double (safe : x.natAbs ≤ Number.maxSafe) : Spelling x (.number (.double (.ofInt x)))
  | hex (digits : Int) : Spelling x (.text (toHex digits x))
  | decimal : Spelling x (.text (Digits.decimalInt x))

theorem mem_writeInt {x : Int} {c : Char} (hc : c ∈ Digits.writeInt 16 x) :
    c = '-' ∨ ∃ d, d < 16 ∧ c = Digits.symbol d := by
  cases x with
  | ofNat n => exact .inr (Digits.mem_write (by omega) n hc)
  | negSucc n =>
    rcases List.mem_cons.1 hc with rfl | hc
    · exact .inl rfl
    · exact .inr (Digits.mem_write (by omega) (n + 1) hc)

/-- **A word in hexadecimal has no blank**, not even a negative one. -/
theorem plain_toHex (digits : Int) (x : Word) :
    ∀ c ∈ (toHex digits x).toList, c.toNat < 128 ∧ Text.isBlank c.toNat = false := by
  intro c hc
  rw [toHex, String.toList_ofList, List.leftpad] at hc
  rcases List.mem_cons.1 hc with rfl | hc
  · decide
  rcases List.mem_cons.1 hc with rfl | hc
  · decide
  rcases List.mem_append.1 hc with hc | hc
  · rw [List.eq_of_mem_replicate hc]
    decide
  rcases mem_writeInt hc with rfl | ⟨d, hd, rfl⟩
  · decide
  · exact ⟨Digits.toNat_symbol_lt hd, Digits.isBlank_symbol hd⟩

theorem trim_toHex (digits : Int) (x : Word) : Text.trim (toHex digits x) = toHex digits x :=
  Text.trim_ofChars (plain_toHex digits x)

theorem chars_toHex (digits : Int) (x : Word) : Text.chars (toHex digits x) = (toHex digits x).toList :=
  Text.chars_ofChars fun c hc => Nat.lt_trans (plain_toHex digits x c hc).1 (by decide)

theorem spelled_hex {raw : Text} {k n : Nat} (h : raw.chars = '0' :: 'x' :: (Digits.write 16 n).leftpad k '0') :
    spelled raw = .ok (n : Word) := by
  have hfilter : ((Digits.write 16 n).leftpad k '0').filter (· != '_') = (Digits.write 16 n).leftpad k '0' := by
    refine List.filter_eq_self.2 fun c hc => ?_
    obtain ⟨d, hd, rfl⟩ := Digits.mem_leftpad_write (by omega) k n hc
    simpa using Digits.symbol_ne_underscore hd
  simp only [spelled, h, hfilter, Digits.read?_leftpad_write (show 2 ≤ 16 by omega) (Nat.le_refl 16)]

theorem spelled_decimal {raw : Text} {n : Nat} (h : raw.chars = Digits.write 10 n) : spelled raw = .ok (n : Word) := by
  have hsym : ∀ c ∈ Digits.write 10 n, ∃ d, d < 10 ∧ c = Digits.symbol d := fun c hc => Digits.mem_write (by omega) n hc
  have hletter : ∀ d < 10, Digits.symbol d ≠ 'x' ∧ Digits.symbol d ≠ 'X' := by decide
  have hread := Digits.read?_write 10 (by omega) (by omega) n
  unfold spelled
  rw [h]
  split
  · next hnil => exact absurd hnil (Digits.write_ne_nil 10 n)
  · next ds hx =>
    obtain ⟨d, hd, he⟩ := hsym 'x' (by rw [hx]; simp)
    exact absurd he.symm (hletter d hd).1
  · next ds hX =>
    obtain ⟨d, hd, he⟩ := hsym 'X' (by rw [hX]; simp)
    exact absurd he.symm (hletter d hd).2
  · rw [hread]

/-- **Every spelling of a word without a sign stands for that word.** -/
theorem Spelling.integer {x : Word} {v : Value} (h : Spelling x v) (hx : 0 ≤ x) : integer v = .ok x := by
  obtain ⟨n, rfl⟩ := Int.eq_ofNat_of_zero_le hx
  cases h with
  | exact => rfl
  | double safe => rw [Word.integer, Number.toSafe?_ofInt safe]
  | hex digits =>
    rw [Word.integer, trim_toHex]
    refine spelled_hex (k := digits.toNat) ?_
    rw [chars_toHex, toHex, String.toList_ofList]
    rfl
  | decimal =>
    have hplain : ∀ c ∈ Digits.write 10 n, c.toNat < 128 ∧ Text.isBlank c.toNat = false := by
      intro c hc
      obtain ⟨d, hd, rfl⟩ := Digits.mem_write (by omega) n hc
      exact ⟨Digits.toNat_symbol_lt (by omega), Digits.isBlank_symbol (by omega)⟩
    rw [Word.integer, Digits.decimalInt, Text.ofString_ofList]
    refine spelled_decimal ?_
    rw [show Digits.writeInt 10 n = Digits.write 10 n from rfl, Text.trim_ofChars hplain]
    exact Text.chars_ofChars fun c hc => Nat.lt_trans (hplain c hc).1 (by decide)

/-! ## Values that are read as words -/

theorem read_eq_ok_iff_integer {field : String} {v : Value} {x : Word} :
    read field v = .ok x ↔ integer v = .ok x ∧ Fits storageBits x := by
  unfold read
  constructor
  · intro h
    obtain ⟨y, hy, hx⟩ := bind_eq_ok (mapError_eq_ok h)
    unfold inRange at hx
    split at hx
    · next hr => cases hx; exact ⟨hy, hr⟩
    · cases hx
  · rintro ⟨hx, hr⟩
    rw [hx, Except.bind, inRange, if_pos ⟨hr.1, hr.2⟩]
    rfl

/-- A value that is read as a word, whatever the name of its place. -/
def Accepts (v : Value) (x : Word) : Prop := ∀ field, read field v = .ok x

theorem read_eq_ok_iff {field : String} {v : Value} {x : Word} : read field v = .ok x ↔ Accepts v x := by
  constructor
  · intro h field'
    unfold read at h ⊢
    rw [mapError_eq_ok h]
    rfl
  · intro h
    exact h field

theorem Accepts.fits {v : Value} {x : Word} (h : Accepts v x) : Fits storageBits x :=
  (read_eq_ok_iff_integer.1 (h "")).2

/-- **Every spelling of a word that fits in storage is read as that word.** -/
theorem Spelling.accepts {x : Word} {v : Value} (h : Spelling x v) (hx : Fits storageBits x) : Accepts v x := by
  intro field
  exact read_eq_ok_iff_integer.2 ⟨h.integer hx.1, hx⟩

theorem forall₂_spelling {spell : Word → Value} (h : ∀ x, Spelling x (spell x)) :
    ∀ ws : List Word, List.Forall₂ Spelling ws (ws.map spell)
  | [] => .nil
  | w :: ws => .cons (h w) (forall₂_spelling h ws)

theorem accepts_of_spelling : ∀ {vs : List Value} {xs : List Word}, List.Forall₂ Spelling xs vs →
    (∀ x ∈ xs, Fits storageBits x) → List.Forall₂ Accepts vs xs
  | _, _, .nil, _ => .nil
  | _, _, .cons h hs, hx => by
    obtain ⟨hx, hxs⟩ := List.forall_mem_cons.1 hx
    exact .cons (h.accepts hx) (accepts_of_spelling hs hxs)

theorem fits_of_accepts : ∀ {vs : List Value} {xs : List Word}, List.Forall₂ Accepts vs xs →
    ∀ x ∈ xs, Fits storageBits x
  | _, _, .nil => fun _ hx => absurd hx List.not_mem_nil
  | _, _, .cons h hs => List.forall_mem_cons.2 ⟨h.fits, fits_of_accepts hs⟩

/-- **A list of values is read as the words that its items are read as, one by one.** -/
theorem readFrom_eq_ok_iff (field : String) : ∀ (vs : List Value) (i : Nat) (xs : List Word),
    readFrom field i vs = .ok xs ↔ List.Forall₂ Accepts vs xs
  | [], i, xs => by
    constructor
    · intro h
      cases h
      exact .nil
    · intro h
      cases h
      rfl
  | v :: vs, i, xs => by
    constructor
    · intro h
      obtain ⟨x, hx, h⟩ := bind_eq_ok h
      obtain ⟨rest, hrest, h⟩ := bind_eq_ok h
      cases h
      exact .cons (read_eq_ok_iff.1 hx) ((readFrom_eq_ok_iff field vs (i + 1) rest).1 hrest)
    · intro h
      cases h with
      | cons hx hrest =>
        rw [readFrom, hx (itemField field i), ok_bind, (readFrom_eq_ok_iff field vs (i + 1) _).2 hrest]
        rfl

/-- **A word of 40 bits is written as `0x` and exactly ten hexadecimal digits**, the letters among them small. -/
theorem hex_digits {x : Word} (hx : Fits blockBits x) :
    ∃ ds, (Word.hex x).toList = '0' :: 'x' :: ds ∧ ds.length = 10 ∧
      ∀ c ∈ ds, ('0' ≤ c ∧ c ≤ '9') ∨ ('a' ≤ c ∧ c ≤ 'f') := by
  obtain ⟨n, rfl⟩ := Int.eq_ofNat_of_zero_le hx.1
  have hn : n < Nat.pow 16 10 := by
    have h : (n : Int) < Nat.pow 2 40 := hx.2
    rw [show Nat.pow 16 10 = Nat.pow 2 40 from by decide]
    exact Int.ofNat_lt.1 h
  have hlen := Digits.length_write_le 16 n 10 (by omega) hn
  refine ⟨(Digits.write 16 n).leftpad 10 '0', ?_, ?_, ?_⟩
  · rw [Word.hex, toHex, String.toList_ofList]
    rfl
  · rw [List.length_leftpad]
    omega
  · intro c hc
    obtain ⟨d, hd, rfl⟩ := Digits.mem_leftpad_write (by omega) 10 n hc
    have h : ∀ d < 16, ('0' ≤ Digits.symbol d ∧ Digits.symbol d ≤ '9') ∨
        ('a' ≤ Digits.symbol d ∧ Digits.symbol d ≤ 'f') := by decide
    exact h d hd

end Word
end GlyphChain
