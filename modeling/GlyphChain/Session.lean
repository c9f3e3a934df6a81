import GlyphChain.Cipher.InPlace
import GlyphChain.Glyph.Encode
import GlyphChain.Glyph.Render
/-!
# Session — steps on a working chain

A session holds a list of words and a glyph table and takes steps on them.  A step that fails leaves both as they
were, and the session goes on.
-/
namespace GlyphChain
namespace Session

open Cipher (Settings atBlock)

structure State where
  words : List Word
  table : Glyph.Table

inductive Step
  | set (words : List Word)
  | encode (text : Text)
  | encrypt (s : Settings)
  | decrypt (s : Settings)
  | encipherAt (i : Nat) (s : Settings)
  | decipherAt (i : Nat) (s : Settings)
  | table (glyphs : List Value)
  | check (field : String) (least : Number)
  | render (lower : Bool)

/-- What a step answers: the words after it, and the line it prints if it prints one. -/
structure Answer where
  words : List Word
  line : Option Text

/-- The state after a step, if it does not fail. -/
def State.apply (st : State) : Step → Except Fault State
  | .set words => .ok { st with words := words }
  | .encode text => .ok { st with words := st.table.encode text }
  | .encrypt s => (s.encryptChain st.words).map fun words => { st with words := words }
  | .decrypt s => (s.decryptChain st.words).map fun words => { st with words := words }
  | .encipherAt i s => (atBlock s.encipher i st.words).map fun words => { st with words := words }
  | .decipherAt i s => (atBlock s.decipher i st.words).map fun words => { st with words := words }
  | .table glyphs => (Glyph.Table.ofValues "glyphs" glyphs).map fun table => { st with table := table }
  | .check field least => (Cipher.checkChain field least st.words).map fun _ => st
  | .render _ => .ok st

def State.printed (st : State) : Step → Option Text
  | .render lower => some (st.table.line lower st.words)
  | _ => none

/-- The state after a step, failed or not, and the step's answer. -/
def State.step (st : State) (s : Step) : State × Except Fault Answer :=
  match st.apply s with
  | .ok next => (next, .ok ⟨next.words, next.printed s⟩)
  | .error fault => (st, .error fault)

def State.run (st : State) : List Step → List (Except Fault Answer)
  | [] => []
  | s :: rest => (st.step s).2 :: State.run (st.step s).1 rest

end Session
end GlyphChain
