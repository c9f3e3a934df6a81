import GlyphChain.Cipher.InPlace
import GlyphChain.Profile.Basic
/-!
# Steps — the operations on a profile, check by check

Decrypting, encrypting and verifying as they are carried out: the blocks are worked in place, each after the checks of
the rounds and the key, the bytes of a text are packed slice by slice, each slice checked for its length, and the bytes
of the decrypted words are looked up one by one.  Each of the checks can fail.
-/
namespace GlyphChain
namespace Profile

def settings (p : Profile) : Cipher.Settings := .ofParams p.params

/-- The decrypted words and the line of what looking them up gives. -/
def decryptSteps (p : Profile) (lower : Bool) : Except Fault (List Word × Text) := do
  let words ← p.settings.decryptLoop p.chain
  return (words, p.glyphs.lookupLine lower words)

/-- The words of a text, encrypted. -/
def encryptSteps (p : Profile) (text : Text) : Except Fault (List Word) := do
  let words ← p.glyphs.encodeSlices text
  p.settings.encryptLoop words

/-- Whether a text encrypts to as many words as the chain has, each the low 40 bits of the chain's word. -/
def verifySteps (p : Profile) (text : Text) : Except Fault Bool := do
  let words ← p.encryptSteps text
  return words.length == p.chain.length && (words.zip p.chain).all fun w => w.1 == Word.low Word.blockBits w.2

end Profile
end GlyphChain
