import GlyphChain.Text.Units
/-!
# Utf8 — texts from bytes

A decoder that never fails: bytes that begin no character, and beginnings that do not go on, become one replacement
mark each.  It reads one byte at a time and keeps, for a character under way, how many bytes are missing, the range of
the next one and the bits so far; narrower ranges after some leads keep out long forms, surrogates and values past
U+10FFFF.
-/
namespace GlyphChain
namespace Utf8

/-- The mark that stands for whatever is not a character. -/
def replacement : Char := '\uFFFD'

/-- Where the decoder stands between two bytes. -/
inductive State
  | start
  | pending (missing low high value : Nat)

/-- What a byte does where a character may begin. -/
def enter (b : Nat) : List Char × State :=
  if b < 0x80 then ([Char.ofNat b], .start)
  else if b < 0xC2 then ([replacement], .start)
  else if b < 0xE0 then ([], .pending 1 0x80 0xBF (b - 0xC0))
  else if b = 0xE0 then ([], .pending 2 0xA0 0xBF 0)
  else if b = 0xED then ([], .pending 2 0x80 0x9F 0xD)
  else if b < 0xF0 then ([], .pending 2 0x80 0xBF (b - 0xE0))
  else if b = 0xF0 then ([], .pending 3 0x90 0xBF 0)
  else if b < 0xF4 then ([], .pending 3 0x80 0xBF (b - 0xF0))
  else if b = 0xF4 then ([], .pending 3 0x80 0x8F 4)
  else ([replacement], .start)

/-- The characters that one more byte completes, and the state after it. -/
def step : State → Nat → List Char × State
  | .start, b => enter b
  | .pending missing low high value, b =>
    if low ≤ b ∧ b ≤ high then
      if missing ≤ 1 then ([Char.ofNat (value * 64 + (b - 0x80))], .start)
      else ([], .pending (missing - 1) 0x80 0xBF (value * 64 + (b - 0x80)))
    else (replacement :: (enter b).1, (enter b).2)

/-- The text of the bytes from a state on. -/
def decodeFrom : State → List UInt8 → List Char
  | .start, [] => []
  | .pending .., [] => [replacement]
  | s, b :: bs => (step s b.toNat).1 ++ decodeFrom (step s b.toNat).2 bs

def decode (bytes : List UInt8) : List Char := decodeFrom .start bytes

/-- The character of a code point; half of a pair is none. -/
def character (p : Text) : Char := if (Text.code p).isValidChar then Char.ofNat (Text.code p) else replacement

/-- A text as it can be written in bytes. -/
def writable (t : Text) : String := String.ofList (t.points.map character)

end Utf8
end GlyphChain
