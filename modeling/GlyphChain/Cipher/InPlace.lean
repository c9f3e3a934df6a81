import GlyphChain.Cipher.Settings
/-!
# InPlace — chains worked block by block in one list

The loops go over the indexes of the blocks, up for encrypting and down for decrypting.  A step takes its block out of
the words as they stand, checks the rounds and the key once more, and puts the result back in place.
-/
namespace GlyphChain
namespace Cipher

/-- The words with the block at `i` taken through `f`; a chain that does not reach it stays as it is. -/
def atBlock (f : Block → Except Fault Block) (i : Nat) (words : List Word) : Except Fault (List Word) :=
  match words[i]?, words[i + 1]? with
  | some v0, some v1 => (f ⟨v0, v1⟩).map fun b => (words.set i b.v0).set (i + 1) b.v1
  | _, _ => .ok words

/-- **Working on a block leaves the words before and after it.** -/
theorem atBlock_append (f : Block → Except Fault Block) (pre : List Word) (v0 v1 : Word) (post : List Word) :
    atBlock f pre.length (pre ++ v0 :: v1 :: post) = (f ⟨v0, v1⟩).map fun b => pre ++ b.v0 :: b.v1 :: post := by
  simp [atBlock]

theorem exists_block {ws : List Word} {i : Nat} (h : i + 1 < ws.length) :
    ∃ pre v0 v1 post, ws = pre ++ v0 :: v1 :: post ∧ pre.length = i := by
  refine ⟨ws.take i, ws[i], ws[i + 1], ws.drop (i + 2), ?_, ?_⟩
  · rw [← List.drop_eq_getElem_cons, ← List.drop_eq_getElem_cons, List.take_append_drop]
  · rw [List.length_take]
    omega

namespace Settings

/-- Encrypting in place, from the first block to the last. -/
def encryptLoop (s : Settings) (words : List Word) : Except Fault (List Word) := do
  let _ ← s.forChain
  (List.range' 0 (words.length - 1)).foldlM (fun out i => atBlock s.encipher i out) words

/-- Decrypting in place, from the last block to the first. -/
def decryptLoop (s : Settings) (words : List Word) : Except Fault (List Word) := do
  let _ ← s.forChain
  (List.range' 0 (words.length - 1)).reverse.foldlM (fun out i => atBlock s.decipher i out) words

end Settings
end Cipher
end GlyphChain
