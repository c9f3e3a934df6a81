import GlyphChain.Proofs.Cipher.Loop
import GlyphChain.Proofs.Profile.Faults
/-!
# UpFront — a cipher fails at its settings or not at all

All faults of settings are listed, those of the key and those of the rounds.  An operation on a chain goes by the key's
first and one on a block by the rounds' first (`blames_forChain`, `blames_forBlock`), both without a look at the words.
Sound settings have no fault, so a chain is worked to its end; `Worked` follows the loop block by block and holds only
if every call on the way succeeds (`worked_of_foldlM`).
-/
namespace GlyphChain

namespace Cipher
namespace Settings

def keyFaults (s : Settings) : List Fault := Key.faults "key" s.key

def roundsFaults (s : Settings) : List Fault := if s.rounds.IsCount then [] else [.rounds "rounds" s.rounds]

/-- Settings of exactly four key words and a count of rounds. -/
structure Sound (s : Settings) : Prop where
  length : s.key.length = 4
  words : ∀ v ∈ s.key, Key.IsWord v
  rounds : s.rounds.IsCount

variable {s : Settings}

/-! ## The checks -/

theorem blames_forChain (s : Settings) : Blames (s.keyFaults ++ s.roundsFaults) s.forChain := by
  refine (Key.blames_ofValues "key" s.key).bind (fun key _ => ?_)
  exact (Profile.blames_ofNumber "rounds" s.rounds).map (fun rounds => (⟨key, rounds, s.delta⟩ : Params))

theorem blames_forBlock (s : Settings) : Blames (s.roundsFaults ++ s.keyFaults) s.forBlock := by
  refine (Profile.blames_ofNumber "rounds" s.rounds).bind (fun rounds _ => ?_)
  exact (Key.blames_ofValues "key" s.key).map (fun key => (⟨key, rounds, s.delta⟩ : Params))

theorem roundsFaults_eq_nil_iff : s.roundsFaults = [] ↔ s.rounds.IsCount := by
  unfold roundsFaults
  by_cases hr : s.rounds.IsCount <;> simp [hr]

theorem sound_iff : s.Sound ↔ s.keyFaults = [] ∧ s.roundsFaults = [] := by
  rw [keyFaults, Key.faults_eq_nil_iff, roundsFaults_eq_nil_iff]
  constructor
  · rintro ⟨hlen, hwords, hrounds⟩
    exact ⟨⟨hlen, hwords⟩, hrounds⟩
  · rintro ⟨⟨hlen, hwords⟩, hrounds⟩
    exact ⟨hlen, hwords, hrounds⟩

/-- **Sound settings pass the checks of a chain.** -/
theorem Sound.forChain (h : s.Sound) : ∃ p, s.forChain = .ok p := by
  obtain ⟨hkey, hrounds⟩ := sound_iff.1 h
  exact (blames_forChain s).ok_iff.2 (List.append_eq_nil_iff.2 ⟨hkey, hrounds⟩)

/-! ## The blocks of a chain, one after the other -/

/-- The words after the blocks at a list of places were worked, in that order and each call on a block a success. -/
inductive Worked (f : Block → Except Fault Block) : List Nat → List Word → List Word → Prop
  | done (ws : List Word) : Worked f [] ws ws
  | block {pre post out : List Word} {v0 v1 : Word} {b : Block} {places : List Nat} (call : f ⟨v0, v1⟩ = .ok b)
      (rest : Worked f places (pre ++ b.v0 :: b.v1 :: post) out) :
      Worked f (pre.length :: places) (pre ++ v0 :: v1 :: post) out

/-- **A loop that came to its end made every call with success**, as long as it kept to the blocks that there are. -/
theorem worked_of_foldlM {f : Block → Except Fault Block} : ∀ {places : List Nat} {ws out : List Word},
    (∀ i ∈ places, i + 1 < ws.length) → places.foldlM (fun ws i => atBlock f i ws) ws = .ok out → Worked f places ws out
  | [], ws, out, _, h => by
    cases h
    exact .done ws
  | i :: places, ws, out, hin, h => by
    obtain ⟨hi, hin⟩ := List.forall_mem_cons.1 hin
    obtain ⟨pre, v0, v1, post, rfl, rfl⟩ := exists_block hi
    rw [List.foldlM_cons, atBlock_append] at h
    cases hcall : f ⟨v0, v1⟩ with
    | error fault => rw [hcall] at h; cases h
    | ok b =>
      rw [hcall] at h
      -- a block is put back in the place of the one taken out, so the blocks still to come are still there
      have hin' : ∀ j ∈ places, j + 1 < (pre ++ b.v0 :: b.v1 :: post).length := by simpa using hin
      exact .block hcall (worked_of_foldlM hin' h)

theorem forall_mem_blocks (ws : List Word) : ∀ i ∈ List.range' 0 (ws.length - 1), i + 1 < ws.length := by
  intro i hi
  obtain ⟨-, hlt⟩ := List.mem_range'_1.1 hi
  omega

theorem worked_encryptChain {words out : List Word} (h : s.encryptChain words = .ok out) :
    Worked s.encipher (List.range' 0 (words.length - 1)) words out := by
  rw [← encryptLoop_eq, encryptLoop] at h
  obtain ⟨p, -, h⟩ := bind_eq_ok h
  exact worked_of_foldlM (forall_mem_blocks words) h

theorem worked_decryptChain {words out : List Word} (h : s.decryptChain words = .ok out) :
    Worked s.decipher (List.range' 0 (words.length - 1)).reverse words out := by
  rw [← decryptLoop_eq, decryptLoop] at h
  obtain ⟨p, -, h⟩ := bind_eq_ok h
  exact worked_of_foldlM (fun i hi => forall_mem_blocks words i (List.mem_reverse.1 hi)) h

theorem Sound.encryptChain (h : s.Sound) (words : List Word) : ∃ out, s.encryptChain words = .ok out ∧
    out.length = words.length ∧ Worked s.encipher (List.range' 0 (words.length - 1)) words out := by
  obtain ⟨p, hp⟩ := h.forChain
  have hok : s.encryptChain words = .ok (p.encryptChain words) := by
    rw [Settings.encryptChain, hp]
    rfl
  exact ⟨_, hok, p.length_encryptChain words, worked_encryptChain hok⟩

theorem Sound.decryptChain (h : s.Sound) (words : List Word) : ∃ out, s.decryptChain words = .ok out ∧
    out.length = words.length ∧ Worked s.decipher (List.range' 0 (words.length - 1)).reverse words out := by
  obtain ⟨p, hp⟩ := h.forChain
  have hok : s.decryptChain words = .ok (p.decryptChain words) := by
    rw [Settings.decryptChain, hp]
    rfl
  exact ⟨_, hok, p.length_decryptChain words, worked_decryptChain hok⟩

/-! ## All four operations -/

theorem blames_chain {op : List Word → Except Fault (List Word)}
    (h : op ∈ [s.encryptChain, s.decryptChain, s.encryptLoop, s.decryptLoop]) (words : List Word) :
    Blames (s.keyFaults ++ s.roundsFaults) (op words) := by
  have hencrypt : Blames (s.keyFaults ++ s.roundsFaults) (s.encryptChain words) :=
    (blames_forChain s).map (fun p : Params => p.encryptChain words)
  have hdecrypt : Blames (s.keyFaults ++ s.roundsFaults) (s.decryptChain words) :=
    (blames_forChain s).map (fun p : Params => p.decryptChain words)
  simp only [List.mem_cons, List.not_mem_nil, or_false] at h
  rcases h with rfl | rfl | rfl | rfl
  · exact hencrypt
  · exact hdecrypt
  · rw [encryptLoop_eq]
    exact hencrypt
  · rw [decryptLoop_eq]
    exact hdecrypt

theorem blames_block {op : Block → Except Fault Block} (h : op ∈ [s.encipher, s.decipher]) (b : Block) :
    Blames (s.roundsFaults ++ s.keyFaults) (op b) := by
  simp only [List.mem_cons, List.not_mem_nil, or_false] at h
  rcases h with rfl | rfl
  · exact (blames_forBlock s).map (·.encipher b)
  · exact (blames_forBlock s).map (·.decipher b)

/-- **A chain operation fails up front or not at all**, for every key, every number of rounds and every delta.
Encrypting and decrypting, at once or block by block with every check made again, fail if and only if the key is not
exactly four exact integers without a sign or the rounds are no safe integer of at least zero, and then all with the
same fault whatever the words: the first of the key, and that of the rounds if the key has none.  Enciphering and
deciphering a block fail for the same settings, but with the fault of the rounds first.  With sound settings there are
as many words after a chain operation as before, and every call on a block along the way succeeds, from the first block
to the last in encrypting and from the last to the first in decrypting. -/
theorem chain_fails_up_front (s : Settings) :
    (∀ op ∈ [s.encryptChain, s.decryptChain, s.encryptLoop, s.decryptLoop], ∀ words,
      ((∃ f, op words = .error f) ↔ ¬ s.Sound) ∧
      ∀ f, op words = .error f ↔ (s.keyFaults ++ s.roundsFaults).head? = some f) ∧
    (∀ op ∈ [s.encipher, s.decipher], ∀ b, ((∃ f, op b = .error f) ↔ ¬ s.Sound) ∧
      ∀ f, op b = .error f ↔ (s.roundsFaults ++ s.keyFaults).head? = some f) ∧
    (s.Sound → ∀ words,
      (∃ out, s.encryptChain words = .ok out ∧ out.length = words.length ∧
        Worked s.encipher (List.range' 0 (words.length - 1)) words out) ∧
      ∃ out, s.decryptChain words = .ok out ∧ out.length = words.length ∧
        Worked s.decipher (List.range' 0 (words.length - 1)).reverse words out) := by
  refine ⟨fun op hop words => ⟨?_, (blames_chain hop words).error_iff⟩,
    fun op hop b => ⟨?_, (blames_block hop b).error_iff⟩, fun h words => ⟨h.encryptChain words, h.decryptChain words⟩⟩
  · rw [(blames_chain hop words).fails_iff, ne_eq, List.append_eq_nil_iff, ← sound_iff]
  · rw [(blames_block hop b).fails_iff, ne_eq, List.append_eq_nil_iff, and_comm, ← sound_iff]

/-- A key with three bad words and rounds that are no number: the chain operations blame the first of the words, even
without a word to work on, and the block operations the rounds.  With sound settings three words are worked block by
block. -/
theorem chain_fails_up_front_mixed :
    let bad : Settings := ⟨[.number (.exact 5), .number (.double (.ofInt 1)), .number (.exact (-1)), .null], .nan, -7⟩
    let good : Settings := .ofParams ⟨⟨1, 2, 3, 4⟩, 2, -7⟩
    bad.encryptChain [] = .error (.keyWord "key" 1) ∧ bad.decryptLoop [1, 2] = .error (.keyWord "key" 1) ∧
      bad.decipher ⟨1, 2⟩ = .error (.rounds "rounds" .nan) ∧
      ∃ out, good.decryptChain [1, 2, 3] = .ok out ∧ out.length = 3 ∧ Worked good.decipher [1, 0] [1, 2, 3] out := by
  intro bad good
  obtain ⟨hchain, hblock, -⟩ := chain_fails_up_front bad
  have hsound : good.Sound := by
    refine ⟨rfl, ?_, ⟨2, by decide, rfl⟩⟩
    simp only [good, Settings.ofParams, Key.values, Key.words, List.map_cons, List.map_nil, List.forall_mem_cons]
    exact ⟨⟨1, rfl⟩, ⟨2, rfl⟩, ⟨3, rfl⟩, ⟨4, rfl⟩, fun v hv => absurd hv List.not_mem_nil⟩
  obtain ⟨-, -, hgood⟩ := chain_fails_up_front good
  exact ⟨((hchain _ (by simp) []).2 _).2 rfl, ((hchain _ (by simp) [1, 2]).2 _).2 rfl,
    ((hblock _ (by simp) ⟨1, 2⟩).2 _).2 rfl, (hgood hsound [1, 2, 3]).2⟩

end Settings
end Cipher
end GlyphChain
