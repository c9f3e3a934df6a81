import GlyphChain.Cipher.Settings
/-!
# Accepted — settings that pass their checks

Any four natural numbers are a key and any natural number up to the greatest safe one is a count of rounds, so a
cipher's parameters, stated as a caller would, come through the checks of a block and of a chain as they were.
-/
namespace GlyphChain

@[simp] theorem Key.ofValues_values (field : String) (key : Key) : Key.ofValues field key.values = .ok key := rfl

theorem Number.toSafe?_ofInt {n : Int} (h : n.natAbs ≤ maxSafe) : (ofInt n).toSafe? = some n := by
  rw [toSafe?, toInt?_ofInt, Option.filter_some, if_pos (by simpa using h)]

theorem Rounds.ofNumber_ofInt (field : String) {rounds : Nat} (h : rounds ≤ Number.maxSafe) :
    Rounds.ofNumber field (.ofInt rounds) = .ok rounds := by
  rw [ofNumber, Number.toSafe?_ofInt (by simpa using h)]

theorem Rounds.le_of_ofNumber {field : String} {n : Number} {r : Nat} (h : Rounds.ofNumber field n = .ok r) :
    r ≤ Number.maxSafe := by
  unfold Rounds.ofNumber at h
  split at h
  · next r' hsafe =>
    cases h
    obtain ⟨-, hle⟩ := Option.filter_eq_some_iff.1 hsafe
    simpa using hle
  · cases h

theorem Number.toInt?_eq_some {n : Number} {x : Int} (h : n.toInt? = some x) : n = .ofInt x := by
  unfold toInt? at h
  split at h
  · split at h
    · next g hg =>
      cases h
      rw [ofInt, Int.ediv_mul_cancel (Int.dvd_of_emod_eq_zero hg)]
    · cases h
  · cases h

theorem Rounds.eq_of_ofNumber {field : String} {n : Number} {r : Nat} (h : Rounds.ofNumber field n = .ok r) :
    n = .ofInt r := by
  unfold Rounds.ofNumber at h
  split at h
  · next r' hsafe =>
    cases h
    exact Number.toInt?_eq_some (Option.filter_eq_some_iff.1 hsafe).1
  · cases h

theorem Key.words_of_ofValues {field : String} {ws : List Word} {key : Key}
    (h : Key.ofValues field (ws.map (fun x => .number (.exact x))) = .ok key) : key.words = ws := by
  match ws with
  | [] | [_] | [_, _] | [_, _, _] | _ :: _ :: _ :: _ :: _ :: _ => cases h
  | [.ofNat a, .ofNat b, .ofNat c, .ofNat d] => cases h; rfl
  | [.negSucc _, _, _, _] | [.ofNat _, .negSucc _, _, _] | [.ofNat _, .ofNat _, .negSucc _, _]
  | [.ofNat _, .ofNat _, .ofNat _, .negSucc _] => cases h

namespace Cipher
namespace Settings

variable {s : Settings} {p : Params}

theorem encipher_of_forBlock (h : s.forBlock = .ok p) (b : Block) : s.encipher b = .ok (p.encipher b) := by
  rw [encipher, h]
  rfl

theorem decipher_of_forBlock (h : s.forBlock = .ok p) (b : Block) : s.decipher b = .ok (p.decipher b) := by
  rw [decipher, h]
  rfl

theorem forBlock_ofParams (h : p.rounds ≤ Number.maxSafe) : (ofParams p).forBlock = .ok p := by
  unfold forBlock ofParams
  rw [Rounds.ofNumber_ofInt _ h, Key.ofValues_values]
  rfl

theorem forChain_ofParams (h : p.rounds ≤ Number.maxSafe) : (ofParams p).forChain = .ok p := by
  unfold forChain ofParams
  rw [Rounds.ofNumber_ofInt _ h, Key.ofValues_values]
  rfl

theorem encipher_ofParams (h : p.rounds ≤ Number.maxSafe) (b : Block) :
    (ofParams p).encipher b = .ok (p.encipher b) :=
  encipher_of_forBlock (forBlock_ofParams h) b

theorem decipher_ofParams (h : p.rounds ≤ Number.maxSafe) (b : Block) :
    (ofParams p).decipher b = .ok (p.decipher b) :=
  decipher_of_forBlock (forBlock_ofParams h) b

theorem encryptChain_ofParams (h : p.rounds ≤ Number.maxSafe) (words : List Word) :
    (ofParams p).encryptChain words = .ok (p.encryptChain words) := by
  rw [encryptChain, forChain_ofParams h]
  rfl

theorem decryptChain_ofParams (h : p.rounds ≤ Number.maxSafe) (words : List Word) :
    (ofParams p).decryptChain words = .ok (p.decryptChain words) := by
  rw [decryptChain, forChain_ofParams h]
  rfl

end Settings
end Cipher
end GlyphChain
