import GlyphChain.Number.Written
import GlyphChain.Text.Units
/-!
# Fault — what can be wrong with an input

Every check of the library fails with a cause, and each cause has one wording.  A message is a label, a colon and a
detail; the label tells the kind of fault.
-/
namespace GlyphChain

/-- Why a value is no word. -/
inductive WordFault
  | notSafe (n : Number)
  | empty
  | notHex (raw : Text)
  | notDecimal (raw : Text)
  | wrongKind
  | outOfRange (x : Int)

/-- Why a list of values is no glyph table. -/
inductive TableFault
  | empty
  | tooLong (length : Nat)
  | entry (index : Nat)

/-- Why a value is no profile, as far as its shape goes. -/
inductive ShapeFault
  | notRecord
  | notNumber
  | notList
  | notJson

/-- Why a file cannot be read. -/
inductive FileFault
  | missing
  | notDirectory
  | directory
  deriving DecidableEq

/-- What is wrong with an input; `field` names the place. -/
inductive Fault
  | word (field : String) (cause : WordFault)
  | byteCount (count : Nat)
  | keyLength (field : String) (length : Nat)
  | keyWord (field : String) (index : Nat)
  | rounds (field : String) (n : Number)
  | chainLength (field : String) (least : Number) (length : Nat)
  | table (field : String) (cause : TableFault)
  | shape (field : String) (cause : ShapeFault)
  | file (path : String) (cause : FileFault)

/-- The name of the place at an index of a list. -/
def itemField (field : String) (index : Nat) : String := field ++ "[" ++ Digits.decimal index ++ "]"

def WordFault.detail : WordFault → Text
  | .notSafe n => " must be a safe integer, got " ++ n.text
  | .empty => " must not be empty"
  | .notHex raw => " is not valid hex: " ++ raw
  | .notDecimal raw => " must be hex (0x...) or decimal, got: " ++ raw
  | .wrongKind => " must be a string, number or bigint"
  | .outOfRange x => " out of u64 range: " ++ Digits.decimalInt x

def TableFault.detail (field : String) : TableFault → String
  | .empty => field ++ " must not be empty"
  | .tooLong length => field ++ ": expected at most 256 entries, got " ++ Digits.decimal length
  | .entry index => itemField field index ++ " must be a single character"

def ShapeFault.detail : ShapeFault → String
  | .notRecord => " must be a JSON object"
  | .notNumber => " must be a number"
  | .notList => " must be an array"
  | .notJson => " is not valid JSON"

def FileFault.label : FileFault → String
  | .missing => "ENOENT"
  | .notDirectory => "ENOTDIR"
  | .directory => "EISDIR"

def FileFault.detail (path : String) : FileFault → String
  | .missing => "no such file or directory, open '" ++ path ++ "'"
  | .notDirectory => "not a directory, open '" ++ path ++ "'"
  | .directory => "illegal operation on a directory, read"

namespace Fault

/-- The kind of a fault. -/
def label : Fault → String
  | .word .. | .byteCount _ => "InvalidWord"
  | .keyLength .. | .keyWord .. => "InvalidKeyLength"
  | .rounds .. => "InvalidRounds"
  | .chainLength .. => "InvalidChainLength"
  | .table .. => "InvalidGlyphTable"
  | .shape .. => "InvalidProfile"
  | .file _ cause => cause.label

/-- What a message says after its label. -/
def detail : Fault → Text
  | .word field cause => field ++ cause.detail
  | .byteCount count => "expected at most 8 bytes, got " ++ Digits.decimal count
  | .keyLength field length => field ++ ": expected 4 words, got " ++ Digits.decimal length
  | .keyWord field index => itemField field index ++ " must be an unsigned bigint"
  | .rounds field n => field ++ " must be a non-negative integer, got " ++ n.text
  | .chainLength field least length =>
    field ++ ": expected at least " ++ least.text ++ " words, got " ++ Digits.decimal length
  | .table field cause => cause.detail field
  | .shape field cause => field ++ cause.detail
  | .file path cause => cause.detail path

/-- The wording of a fault. -/
def message (f : Fault) : Text := f.label ++ ": " ++ f.detail

end Fault

theorem ok_bind {ε α β : Type} (a : α) (f : α → Except ε β) : (Except.ok a >>= f) = f a := rfl

/-- **Two checks in a row pass if both do.** -/
theorem bind_eq_ok {ε α β : Type} {x : Except ε α} {f : α → Except ε β} {b : β} (h : x >>= f = .ok b) :
    ∃ a, x = .ok a ∧ f a = .ok b := by
  cases x with
  | error e => cases h
  | ok a => exact ⟨a, rfl, h⟩

theorem mapError_eq_ok {ε ε' α : Type} {x : Except ε α} {f : ε → ε'} {a : α} (h : x.mapError f = .ok a) : x = .ok a := by
  cases x with
  | error e => cases h
  | ok b => cases h; rfl

end GlyphChain
