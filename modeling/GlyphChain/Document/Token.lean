import GlyphChain.Document.Literal
import GlyphChain.Text.Units
/-!
# Token — the words of a written document

A written document falls into marks, texts in quotes, and bare words that are numbers, truth values or `null`.  The
scanner takes one character at a time; `Mode` is all it has to remember of the token under way.  Blanks between tokens
are the space, the tab and the two line ends, and nothing else.
-/
namespace GlyphChain

inductive Token
  | openList
  | closeList
  | openRecord
  | closeRecord
  | comma
  | colon
  | null
  | bool (b : Bool)
  | number (l : Literal)
  | text (s : Text)

namespace Token

/-- The mark that a character is. -/
def mark? : Char → Option Token
  | '[' => some .openList
  | ']' => some .closeList
  | '\x7b' => some .openRecord
  | '\x7d' => some .closeRecord
  | ',' => some .comma
  | ':' => some .colon
  | _ => none

def isGap (c : Char) : Bool := c == ' ' || c == '\t' || c == '\n' || c == '\r'

def ofWord? (cs : List Char) : Option Token :=
  if cs = "true".toList then some (.bool true)
  else if cs = "false".toList then some (.bool false)
  else if cs = "null".toList then some .null
  else (Literal.ofChars? cs).map .number

/-- The character that a backslash and a letter stand for. -/
def escaped? : Char → Option Char
  | '"' => some '"'
  | '\\' => some '\\'
  | '/' => some '/'
  | 'b' => some '\x08'
  | 'f' => some '\x0c'
  | 'n' => some '\n'
  | 'r' => some '\r'
  | 't' => some '\t'
  | _ => none

/-- The token under way.  Characters and units are kept latest first. -/
inductive Mode
  | between
  | word (chars : List Char)
  | quoted (units : Text)
  | escape (units : Text)
  | hex (units : Text) (missing value : Nat)

/-- What a character does where a token may begin, with the tokens so far, latest first. -/
def enter? (done : List Token) (c : Char) : Option (List Token × Mode) :=
  if isGap c then some (done, .between)
  else if c == '"' then some (done, .quoted [])
  else match mark? c with
    | some t => some (t :: done, .between)
    | none => some (done, .word [c])

def step? : List Token × Mode → Char → Option (List Token × Mode)
  | (done, .between), c => enter? done c
  | (done, .word chars), c =>
    if isGap c || c == '"' || (mark? c).isSome then
      (ofWord? chars.reverse).bind fun t => enter? (t :: done) c
    else some (done, .word (c :: chars))
  | (done, .quoted units), c =>
    if c == '"' then some (.text units.reverse :: done, .between)
    else if c == '\\' then some (done, .escape units)
    else if c.toNat < 0x20 then none
    else some (done, .quoted ((Text.ofCode c.toNat).reverse ++ units))
  | (done, .escape units), c =>
    if c == 'u' then some (done, .hex units 4 0)
    else (escaped? c).map fun e => (done, .quoted ((Text.ofCode e.toNat).reverse ++ units))
  | (done, .hex units missing value), c =>
    (Digits.digit? 16 c).map fun d =>
      if missing ≤ 1 then (done, .quoted (UInt16.ofNat (value * 16 + d) :: units))
      else (done, .hex units (missing - 1) (value * 16 + d))

/-- The tokens of a text that has ended, in the order they were written. -/
def finish? : List Token × Mode → Option (List Token)
  | (done, .between) => some done.reverse
  | (done, .word chars) => (ofWord? chars.reverse).map fun t => (t :: done).reverse
  | _ => none

def scan? (cs : List Char) : Option (List Token) := (cs.foldlM step? ([], .between)).bind finish?

end Token
end GlyphChain
