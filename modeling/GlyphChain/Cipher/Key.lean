import GlyphChain.Document.Value
import GlyphChain.Fault
import GlyphChain.Word.Basic
/-!
# Key — the four key words and the count of rounds

A key is four natural numbers of any size; the cipher cuts them to storage when it adds them in.  Two bits of the
round sum choose the word of each half-round.
-/
namespace GlyphChain

structure Key where
  k0 : Nat
  k1 : Nat
  k2 : Nat
  k3 : Nat
  deriving DecidableEq

namespace Key

def length : Nat := 4

def words (key : Key) : List Word := [(key.k0 : Word), key.k1, key.k2, key.k3]

/-- The words as exact integers. -/
def values (key : Key) : List Value := key.words.map (fun x => .number (.exact x))

/-- The word at an index below four. -/
def word (key : Key) : Nat → Nat
  | 0 => key.k0
  | 1 => key.k1
  | 2 => key.k2
  | _ => key.k3

/-- The word of the first half-round: bits 0 and 1 of the sum. -/
def first {w : Nat} (key : Key) (sum : BitVec w) : Nat := key.word (sum.toNat % 4)

/-- The word of the second half-round: bits 11 and 12 of the sum. -/
def second {w : Nat} (key : Key) (sum : BitVec w) : Nat := key.word (sum.toNat / 2048 % 4)

/-- The key word that a value is: an exact integer without a sign. -/
def word? : Value → Option Nat
  | .number (.exact (.ofNat n)) => some n
  | _ => none

/-- The key that a list of values is: exactly four of them, each a key word. -/
def ofValues (field : String) (vs : List Value) : Except Fault Key :=
  match vs with
  | [a, b, c, d] =>
    match word? a, word? b, word? c, word? d with
    | none, _, _, _ => .error (.keyWord field 0)
    | _, none, _, _ => .error (.keyWord field 1)
    | _, _, none, _ => .error (.keyWord field 2)
    | _, _, _, none => .error (.keyWord field 3)
    | some k0, some k1, some k2, some k3 => .ok ⟨k0, k1, k2, k3⟩
  | _ => .error (.keyLength field vs.length)

end Key

/-- The count of rounds that a number is: a safe integer without a sign. -/
def Rounds.ofNumber (field : String) (n : Number) : Except Fault Nat :=
  match n.toSafe? with
  | some (.ofNat r) => .ok r
  | _ => .error (.rounds field n)

end GlyphChain
