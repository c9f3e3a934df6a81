import GlyphChain.Cipher.Block
/-!
# Chain — overlapping blocks

Block `i` of a chain is its words `i` and `i + 1`, so neighbouring blocks share a word.  Encrypting enciphers the
blocks from the first to the last, each on the word that the block before it left; decrypting deciphers them from the
last to the first.  A chain of fewer than two words has no block and stays as it is.
-/
namespace GlyphChain
namespace Cipher
namespace Params

/-- The blocks from the word `carry` on, enciphered from first to last. -/
def encryptFrom (p : Params) (carry : Word) : List Word → List Word
  | [] => [carry]
  | w :: rest =>
    let b := p.encipher ⟨carry, w⟩
    b.v0 :: encryptFrom p b.v1 rest

/-- A chain with its blocks enciphered from first to last. -/
def encryptChain (p : Params) : List Word → List Word
  | [] => []
  | w :: rest => encryptFrom p w rest

/-- A chain with its blocks deciphered from last to first. -/
def decryptChain (p : Params) : List Word → List Word
  | [] => []
  | w :: rest =>
    match decryptChain p rest with
    | [] => [w]
    | v :: done =>
      let b := p.decipher ⟨w, v⟩
      b.v0 :: b.v1 :: done

@[simp] theorem length_encryptFrom (p : Params) (carry : Word) (ws : List Word) :
    (encryptFrom p carry ws).length = ws.length + 1 := by
  induction ws generalizing carry with
  | nil => rfl
  | cons w ws ih => simp [encryptFrom, ih]

@[simp] theorem length_encryptChain (p : Params) (ws : List Word) : (p.encryptChain ws).length = ws.length := by
  cases ws <;> simp [encryptChain]

@[simp] theorem length_decryptChain (p : Params) (ws : List Word) : (p.decryptChain ws).length = ws.length := by
  induction ws with
  | nil => rfl
  | cons w ws ih =>
    rw [decryptChain]
    split
    · next h => simp only [h, List.length_cons] at ih ⊢; omega
    · next h => simp only [h, List.length_cons] at ih ⊢; omega

end Params

/-- How many words a chain has at least, unless a caller says otherwise. -/
def leastWords : Number := .ofInt 1

/-- A chain of at least a given number of words. -/
def checkChain (field : String) (least : Number) (words : List Word) : Except Fault (List Word) :=
  if least.exceeds words.length then .error (.chainLength field least words.length) else .ok words

end Cipher
end GlyphChain
