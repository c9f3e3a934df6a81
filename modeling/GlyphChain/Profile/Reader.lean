import GlyphChain.Document.Reader
import GlyphChain.Profile.Basic
import GlyphChain.Text.Utf8
import GlyphChain.Word.Reader
/-!
# Reader — profiles from documents

A profile is a record.  Its fields are looked at in a fixed order (rounds, delta, key, chain, glyphs), and the first
fault in that order is the one reported.  Rounds, delta and glyphs have defaults: rounds when absent or null, the
other two only when absent.
-/
namespace GlyphChain
namespace Profile

/-- The name of a field of a source. -/
def fieldOf (source name : String) : String := source ++ "." ++ name

/-- The items of a field that must be a list; an absent field is none. -/
def items (field : String) : Option Value → Except Fault (List Value)
  | some (.list vs) => .ok vs
  | _ => .error (.shape field .notList)

/-- The words of a field that must be a list of them. -/
def words (field : String) (v : Option Value) : Except Fault (List Word) := do
  Word.readFrom field 0 (← items field v)

def readRounds (field : String) : Option Value → Except Fault Nat
  | none | some .null => .ok Cipher.defaultRounds
  | some (.number (.double n)) => Rounds.ofNumber field n
  | some _ => .error (.shape field .notNumber)

def readDelta (field : String) : Option Value → Except Fault Word
  | none => .ok Cipher.defaultDelta
  | some v => Word.read field v

def readKey (field : String) (v : Option Value) : Except Fault Key := do
  let ws ← words field v
  Key.ofValues field (ws.map (fun x => .number (.exact x)))

def readChain (field : String) (v : Option Value) : Except Fault (List Word) := do
  Cipher.checkChain field Cipher.leastWords (← words field v)

def readGlyphs (field : String) : Option Value → Except Fault Glyph.Table
  | none => .ok Glyph.Table.standard
  | some v => do Glyph.Table.ofValues field (← items field (some v))

/-- The profile that a value is, its source named in faults. -/
def ofValue (source : String) : Value → Except Fault Profile
  | .record fields => do
    let rounds ← readRounds (fieldOf source "rounds") (Doc.field? fields "rounds")
    let delta ← readDelta (fieldOf source "delta") (Doc.field? fields "delta")
    let key ← readKey (fieldOf source "key") (Doc.field? fields "key")
    let chain ← readChain (fieldOf source "chain") (Doc.field? fields "chain")
    let glyphs ← readGlyphs (fieldOf source "glyphs") (Doc.field? fields "glyphs")
    return ⟨key, chain, rounds, delta, glyphs⟩
  | _ => .error (.shape source .notRecord)

/-- The profile that a file's bytes are. -/
def ofBytes (source : String) (bytes : List UInt8) : Except Fault Profile :=
  match Doc.read? (Utf8.decode bytes) with
  | some d => ofValue source (Value.ofWritten d)
  | none => .error (.shape source .notJson)

end Profile
end GlyphChain
