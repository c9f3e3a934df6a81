import GlyphChain.Proofs.Cipher.ChainInverse
import GlyphChain.Session
/-!
# Reversal — a run of cipher steps undone

A move is a step of a session that works a cipher on the words, on the whole chain or on one block.  On a chain of
40-bit words a move leaves as many words of 40 bits, and its inverse takes them back (`work_inverse`).  So a run of
moves, of any length and with a cipher of its own for each, is taken back by the inverses in reverse order
(`run_moves`).
-/
namespace GlyphChain
namespace Session

open Cipher (Params Settings chains atBlock atBlock_append exists_block)
open Word (blockBits Fits)

inductive Move
  | encrypt (p : Params)
  | decrypt (p : Params)
  | encipherAt (i : Nat) (p : Params)
  | decipherAt (i : Nat) (p : Params)

namespace Move

def step : Move → Step
  | .encrypt p => .encrypt (.ofParams p)
  | .decrypt p => .decrypt (.ofParams p)
  | .encipherAt i p => .encipherAt i (.ofParams p)
  | .decipherAt i p => .decipherAt i (.ofParams p)

/-- The move with the same cipher at the same place, the other way round. -/
def inverse : Move → Move
  | .encrypt p => .decrypt p
  | .decrypt p => .encrypt p
  | .encipherAt i p => .decipherAt i p
  | .decipherAt i p => .encipherAt i p

/-- A move that can be made on `n` words: its count of rounds is safe, and its block lies among them. -/
def Valid (n : Nat) : Move → Prop
  | .encrypt p | .decrypt p => p.rounds ≤ Number.maxSafe
  | .encipherAt i p | .decipherAt i p => i + 1 < n ∧ p.rounds ≤ Number.maxSafe

instance (n : Nat) : (m : Move) → Decidable (m.Valid n)
  | .encrypt _ | .decrypt _ => Nat.decLe _ _
  | .encipherAt _ _ | .decipherAt _ _ => inferInstanceAs (Decidable (_ ∧ _))

def work : Move → List Word → Except Fault (List Word)
  | .encrypt p => (Settings.ofParams p).encryptChain
  | .decrypt p => (Settings.ofParams p).decryptChain
  | .encipherAt i p => atBlock (Settings.ofParams p).encipher i
  | .decipherAt i p => atBlock (Settings.ofParams p).decipher i

end Move

/-! ## One block of a chain -/

theorem block_mem_chains {n : Nat} {pre post : List Word} {v0 v1 : Word} (h : pre ++ v0 :: v1 :: post ∈ chains n) :
    Fits blockBits v0 ∧ Fits blockBits v1 :=
  ⟨h.2 v0 (by simp), h.2 v1 (by simp)⟩

theorem mem_chains_of_block {n : Nat} {pre post : List Word} {v0 v1 : Word} (h : pre ++ v0 :: v1 :: post ∈ chains n)
    {b : Block} (hb : Fits blockBits b.v0 ∧ Fits blockBits b.v1) : pre ++ b.v0 :: b.v1 :: post ∈ chains n := by
  refine ⟨by simpa using h.1, ?_⟩
  intro w hw
  rcases List.mem_append.1 hw with hw | hw
  · exact h.2 w (List.mem_append_left _ hw)
  rcases List.mem_cons.1 hw with rfl | hw
  · exact hb.1
  rcases List.mem_cons.1 hw with rfl | hw
  · exact hb.2
  · exact h.2 w (by simp [hw])

/-- **A block taken through a map of 40-bit blocks comes back through one that undoes it.** -/
theorem atBlock_inverse {n i : Nat} {ws : List Word} {f g : Block → Except Fault Block} {f' : Block → Block}
    (hi : i + 1 < n) (hws : ws ∈ chains n) (hf : ∀ b, f b = .ok (f' b))
    (hfits : ∀ b, Fits blockBits (f' b).v0 ∧ Fits blockBits (f' b).v1) (hg : ∀ b, g (f' b) = .ok b.low) :
    ∃ out ∈ chains n, atBlock f i ws = .ok out ∧ atBlock g i out = .ok ws := by
  obtain ⟨pre, v0, v1, post, rfl, rfl⟩ := exists_block (hws.1 ▸ hi)
  obtain ⟨h0, h1⟩ := block_mem_chains hws
  refine ⟨_, mem_chains_of_block hws (hfits ⟨v0, v1⟩), ?_, ?_⟩
  · rw [atBlock_append, hf]
    rfl
  · rw [atBlock_append, hg, Block.low, h0.low_eq, h1.low_eq]
    rfl

/-! ## One move -/

namespace Move

/-- **A move on a chain of 40-bit words leaves such a chain of the same length, and its inverse takes it back.** -/
theorem work_inverse {n : Nat} {ws : List Word} {m : Move} (hm : m.Valid n) (hws : ws ∈ chains n) :
    ∃ out ∈ chains n, m.work ws = .ok out ∧ m.inverse.work out = .ok ws := by
  cases m with
  | encrypt p =>
    refine ⟨_, p.encryptChain_mapsTo n hws, Settings.encryptChain_ofParams hm ws, ?_⟩
    rw [inverse, work, Settings.decryptChain_ofParams hm, p.decryptChain_encryptChain hws.2]
  | decrypt p =>
    refine ⟨_, p.decryptChain_mapsTo n hws, Settings.decryptChain_ofParams hm ws, ?_⟩
    rw [inverse, work, Settings.encryptChain_ofParams hm, p.encryptChain_decryptChain hws.2]
  | encipherAt i p =>
    obtain ⟨hi, hr⟩ := hm
    refine atBlock_inverse hi hws (Settings.encipher_ofParams hr) p.fits_encipher ?_
    intro b
    rw [Settings.decipher_ofParams hr, p.decipher_encipher]
  | decipherAt i p =>
    obtain ⟨hi, hr⟩ := hm
    refine atBlock_inverse hi hws (Settings.decipher_ofParams hr) p.fits_decipher ?_
    intro b
    rw [Settings.encipher_ofParams hr, p.encipher_decipher]

theorem Valid.inverse {n : Nat} {m : Move} (hm : m.Valid n) : m.inverse.Valid n := by
  cases m <;> exact hm

theorem step_eq_of_work {ws out : List Word} {m : Move} (h : m.work ws = .ok out) (table : Glyph.Table) :
    State.step ⟨ws, table⟩ m.step = (⟨out, table⟩, .ok ⟨out, none⟩) := by
  have happly : State.apply ⟨ws, table⟩ m.step = (m.work ws).map (fun words => ⟨words, table⟩) := by
    cases m <;> rfl
  have hprinted : State.printed ⟨out, table⟩ m.step = none := by
    cases m <;> rfl
  rw [h] at happly
  unfold State.step
  rw [happly]
  simp only [Except.map, hprinted]

end Move

/-! ## A run of moves -/

def State.after (st : State) (steps : List Step) : State := steps.foldl (fun st s => (st.step s).1) st

theorem State.after_append (st : State) (xs ys : List Step) : st.after (xs ++ ys) = (st.after xs).after ys :=
  List.foldl_append

def takeBack (ms : List Move) : List Move := (ms.map Move.inverse).reverse

def AnswersChain (n : Nat) (a : Except Fault Answer) : Prop := ∃ out ∈ chains n, a = .ok ⟨out, none⟩

/-- Answers of moves made in turn from some words on: each has the words that its move makes of those before it. -/
inductive AnswersInTurn : List Word → List Move → List (Except Fault Answer) → Prop
  | nil (ws : List Word) : AnswersInTurn ws [] []
  | cons {ws out : List Word} {m : Move} {ms : List Move} {answers : List (Except Fault Answer)}
      (work : m.work ws = .ok out) (rest : AnswersInTurn out ms answers) :
      AnswersInTurn ws (m :: ms) (.ok ⟨out, none⟩ :: answers)

/-- **A run of moves makes each in turn, stays among the chains of 40-bit words of one length, and is taken back by the
inverses in reverse order.** -/
theorem run_moves {n : Nat} (table : Glyph.Table) : ∀ {ms : List Move} {ws : List Word},
    (∀ m ∈ ms, m.Valid n) → ws ∈ chains n → ∃ out ∈ chains n,
      State.after ⟨ws, table⟩ (ms.map Move.step) = ⟨out, table⟩ ∧
      (∀ a ∈ State.run ⟨ws, table⟩ (ms.map Move.step), AnswersChain n a) ∧
      AnswersInTurn ws ms (State.run ⟨ws, table⟩ (ms.map Move.step)) ∧
      State.after ⟨out, table⟩ ((takeBack ms).map Move.step) = ⟨ws, table⟩
  | [], ws, _, hws => ⟨ws, hws, rfl, fun _ h => absurd h List.not_mem_nil, .nil ws, rfl⟩
  | m :: ms, ws, hms, hws => by
    obtain ⟨hm, hms⟩ := List.forall_mem_cons.1 hms
    obtain ⟨mid, hmid, hwork, hback⟩ := Move.work_inverse hm hws
    have hstep := Move.step_eq_of_work hwork table
    obtain ⟨out, hout, hafter, hrun, hturn, hundo⟩ := run_moves table hms hmid
    refine ⟨out, hout, ?_, ?_, ?_, ?_⟩
    · rw [← hafter, List.map_cons, State.after, List.foldl_cons, hstep]
      rfl
    · rw [List.map_cons, State.run, hstep]
      exact List.forall_mem_cons.2 ⟨⟨mid, hmid, rfl⟩, hrun⟩
    · rw [List.map_cons, State.run, hstep]
      exact .cons hwork hturn
    · -- the later moves are taken back first, and the inverse of this one is the last
      rw [takeBack, List.map_cons, List.reverse_cons, List.map_append, State.after_append]
      rw [takeBack] at hundo
      rw [hundo, List.map_singleton, State.after, List.foldl_cons, Move.step_eq_of_work hback table]
      rfl

theorem valid_takeBack {n : Nat} {ms : List Move} (h : ∀ m ∈ ms, m.Valid n) : ∀ m ∈ takeBack ms, m.Valid n := by
  intro m hm
  obtain ⟨m', hm', rfl⟩ := List.mem_map.1 (List.mem_reverse.1 hm)
  exact (h m' hm').inverse

/-- **Any run of moves can be undone**: on words of 40 bits, take any list of moves, each with a safe count of rounds and
a cipher of its own and on the whole chain or on a block inside it, and after them their inverses in reverse order.
No step fails, each answers with what its move makes of the words before it, after every step there are as many words as
at the beginning and all of 40 bits, and at the end they are the words of the beginning. -/
theorem moves_taken_back {ws : List Word} (hws : ∀ w ∈ ws, Fits blockBits w) (table : Glyph.Table) {ms : List Move}
    (hms : ∀ m ∈ ms, m.Valid ws.length) :
    AnswersInTurn ws (ms ++ takeBack ms) (State.run ⟨ws, table⟩ ((ms ++ takeBack ms).map Move.step)) ∧
    (∀ a ∈ State.run ⟨ws, table⟩ ((ms ++ takeBack ms).map Move.step),
      ∃ out, a = .ok ⟨out, none⟩ ∧ out.length = ws.length ∧ ∀ w ∈ out, Fits blockBits w) ∧
    State.after ⟨ws, table⟩ ((ms ++ takeBack ms).map Move.step) = ⟨ws, table⟩ := by
  obtain ⟨out, hout, hafter, -, -, hundo⟩ := run_moves table hms ⟨rfl, hws⟩
  have hall : ∀ m ∈ ms ++ takeBack ms, m.Valid ws.length :=
    List.forall_mem_append.2 ⟨hms, valid_takeBack hms⟩
  obtain ⟨-, -, -, hrun, hturn, -⟩ := run_moves table hall ⟨rfl, hws⟩
  refine ⟨hturn, ?_, ?_⟩
  · intro a ha
    obtain ⟨words, hwords, rfl⟩ := hrun a ha
    exact ⟨words, rfl, hwords⟩
  · rw [List.map_append, State.after_append, hafter, hundo]

/-- Two ciphers taken by turns over a chain of three words and over its two blocks, which share a word. -/
theorem moves_taken_back_overlapping :
    let p : Params := ⟨⟨1, 2, 0x123456789abcdef0123, 4⟩, 32, -0x9e38538a49⟩
    let q : Params := ⟨⟨0, 0, 5, 6⟩, 7, 0x1000000000000000001⟩
    let ms : List Move := [.encrypt p, .encipherAt 1 q, .decipherAt 0 p, .decrypt q, .encipherAt 0 q]
    (∀ w ∈ [0, 1, 0xffffffffff], Fits blockBits w) ∧ (∀ m ∈ ms, m.Valid 3) ∧
      State.after ⟨[0, 1, 0xffffffffff], Glyph.Table.standard⟩ ((ms ++ takeBack ms).map Move.step) =
        ⟨[0, 1, 0xffffffffff], Glyph.Table.standard⟩ := by
  intro p q ms
  have hws : ∀ w ∈ [0, 1, 0xffffffffff], Fits blockBits w := by decide
  have hms : ∀ m ∈ ms, m.Valid 3 := by decide
  exact ⟨hws, hms, (moves_taken_back hws Glyph.Table.standard hms).2.2⟩

end Session
end GlyphChain
