import GlyphChain.Cipher.Chain
/-!
# Settings — a cipher before its checks

Settings as a caller gives them: a key and a count of rounds that may be wrong.  An operation on one block looks at
the rounds first and an operation on a chain at the key; once the settings are good, neither can fail.
-/
namespace GlyphChain
namespace Cipher

structure Settings where
  key : List Value
  rounds : Number
  delta : Word

namespace Settings

/-- The settings that state a cipher's parameters. -/
def ofParams (p : Params) : Settings := ⟨p.key.values, .ofInt p.rounds, p.delta⟩

/-- The checks of an operation on one block. -/
def forBlock (s : Settings) : Except Fault Params := do
  let rounds ← Rounds.ofNumber "rounds" s.rounds
  let key ← Key.ofValues "key" s.key
  return ⟨key, rounds, s.delta⟩

/-- The checks of an operation on a chain. -/
def forChain (s : Settings) : Except Fault Params := do
  let key ← Key.ofValues "key" s.key
  let rounds ← Rounds.ofNumber "rounds" s.rounds
  return ⟨key, rounds, s.delta⟩

def encipher (s : Settings) (b : Block) : Except Fault Block := s.forBlock.map (·.encipher b)

def decipher (s : Settings) (b : Block) : Except Fault Block := s.forBlock.map (·.decipher b)

def encryptChain (s : Settings) (words : List Word) : Except Fault (List Word) := s.forChain.map (·.encryptChain words)

def decryptChain (s : Settings) (words : List Word) : Except Fault (List Word) := s.forChain.map (·.decryptChain words)

end Settings
end Cipher
end GlyphChain
