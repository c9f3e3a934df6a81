import GlyphChain.Cipher.Chain
import GlyphChain.Glyph.Encode
import GlyphChain.Glyph.Render
import GlyphChain.Word.Written
/-!
# Profile — a chain with all it takes to print it

A profile holds an encrypted chain, the cipher it is encrypted with and the table it prints through.  The operations
here are what the steps of `Profile.Steps` come to.
-/
namespace GlyphChain

structure Profile where
  key : Key
  chain : List Word
  rounds : Nat
  delta : Word
  glyphs : Glyph.Table
  deriving DecidableEq

namespace Profile

def params (p : Profile) : Cipher.Params := ⟨p.key, p.rounds, p.delta⟩

/-- The words of the chain, decrypted. -/
def decrypted (p : Profile) : List Word := p.params.decryptChain p.chain

/-- The line that the decrypted chain prints as. -/
def line (p : Profile) (lower : Bool) : Text := p.glyphs.line lower p.decrypted

/-- The encrypted chain of a text. -/
def encrypt (p : Profile) (text : Text) : List Word := p.params.encryptChain (p.glyphs.encode text)

/-- Whether a text encrypts to the profile's chain, as far as the chain's low 40 bits go. -/
def verify (p : Profile) (text : Text) : Bool := p.encrypt text = p.chain.map (Word.low Word.blockBits)

/-- The key, the chain and a list of decrypted words, line by line. -/
def trace (p : Profile) (decrypted : List Word) : List String :=
  "--- key" :: p.key.words.map Word.hex ++
  "--- stored chain" :: p.chain.map Word.hex ++
  "--- decrypted chain" :: decrypted.map Word.hex

/-- The profile that comes with the program. -/
def reference : Profile where
  key := ⟨0x0c1d00050f, 0x0001000137, 0x000400022f, 0x0065000027⟩
  chain := [0x058b0e5eda, 0xf48afab6bb, 0xf47bfb8cbf, 0x5fb0c2b766, 0x8a6528f759, 0x7acea379b5, 0xc0850d08ce]
  rounds := Cipher.defaultRounds
  delta := Cipher.defaultDelta
  glyphs := Glyph.Table.standard

end Profile
end GlyphChain
