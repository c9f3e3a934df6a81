import GlyphChain.Document.Value
import GlyphChain.Fault
import GlyphChain.Text.Blank
import GlyphChain.Word.Basic
/-!
# Reader — words from values

A value is a word if it is an exact integer, a double that is a safe integer, or a text that spells one out in
hexadecimal (after `0x` or `0X`, underscores skipped) or decimal digits, with blanks around it; and if it fits in 64
bits without a sign.
-/
namespace GlyphChain
namespace Word

/-- The word that a trimmed text spells. -/
def spelled (raw : Text) : Except WordFault Word :=
  match raw.chars with
  | [] => .error .empty
  | '0' :: 'x' :: ds | '0' :: 'X' :: ds =>
    match Digits.read? 16 (ds.filter (· != '_')) with
    | some n => .ok n
    | none => .error (.notHex raw)
  | cs =>
    match Digits.read? 10 cs with
    | some n => .ok n
    | none => .error (.notDecimal raw)

/-- The integer that a value stands for, of any size. -/
def integer : Value → Except WordFault Word
  | .number (.exact x) => .ok x
  | .number (.double n) =>
    match n.toSafe? with
    | some x => .ok x
    | none => .error (.notSafe n)
  | .text s => spelled s.trim
  | _ => .error .wrongKind

/-- A word that fits in storage without a sign. -/
def inRange (x : Word) : Except WordFault Word :=
  if 0 ≤ x ∧ x < span storageBits then .ok x else .error (.outOfRange x)

/-- The word that the value at a field is. -/
def read (field : String) (v : Value) : Except Fault Word :=
  ((integer v).bind inRange).mapError (.word field)

/-- The words of a list of values, the first at index `i` of the field; the least bad index is the one at fault. -/
def readFrom (field : String) (i : Nat) : List Value → Except Fault (List Word)
  | [] => .ok []
  | v :: vs => do
    let x ← read (itemField field i) v
    let xs ← readFrom field (i + 1) vs
    return x :: xs

end Word
end GlyphChain
