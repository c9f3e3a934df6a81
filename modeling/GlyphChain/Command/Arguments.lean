/-!
# Arguments — the words of a command line

An action has flags of its own.  Splitting a list of words against the flags an action knows gives the values of those
flags, the operands, and what is left over: from the first unknown flag on, every word that is not a known flag or its
value is left over.  The word `--` ends the flags.
-/
namespace GlyphChain
namespace Command

/-- What the program does with a profile. -/
inductive Action
  | decrypt
  | encrypt
  | verify
  deriving DecidableEq

inductive Flag
  | profile
  | lowerCase
  | trace
  deriving DecidableEq

def Action.name : Action → String
  | .decrypt => "decrypt"
  | .encrypt => "encrypt"
  | .verify => "verify"

def Action.ofName? (s : String) : Option Action :=
  [Action.decrypt, .encrypt, .verify].find? (·.name == s)

/-- The flags that an action knows, in the order of its help. -/
def Action.flags : Action → List Flag
  | .decrypt => [.profile, .lowerCase, .trace]
  | .encrypt | .verify => [.profile]

/-- The name of a flag, which follows two hyphens. -/
def Flag.name : Flag → String
  | .profile => "profile"
  | .lowerCase => "lower-case"
  | .trace => "trace"

def Flag.word (f : Flag) : String := "--" ++ f.name

/-- The words of a command line, sorted out. -/
structure Split where
  operands : List String
  unknown : List String
  profile : Option String
  lowerCase : Bool
  trace : Bool
  /-- Whether the last word is a flag that lacks its value. -/
  incomplete : Bool

namespace Split

def empty : Split := ⟨[], [], none, false, false, false⟩

/-- One more operand or word left over, before the others. -/
def addWord (leftOver : Bool) (a : String) (s : Split) : Split :=
  if leftOver then { s with unknown := a :: s.unknown } else { s with operands := a :: s.operands }

/-- One more profile, before the others; a later one counts. -/
def addProfile (v : String) (s : Split) : Split := { s with profile := s.profile.or (some v) }

end Split

/-- Whether a word has the form of a flag: a hyphen and more. -/
def isFlag (a : String) : Bool :=
  match a.toList with
  | '-' :: _ :: _ => true
  | _ => false

def isHelp (a : String) : Bool := a == "-h" || a == "--help"

/-- The value that a word such as `--profile=value` gives to a known profile flag. -/
def attachedProfile? (known : List Flag) (a : String) : Option String :=
  if known.contains .profile then ((Flag.word .profile ++ "=").toList.isPrefixOf? a.toList).map String.ofList else none

/-- The words sorted out; `leftOver` says whether an unknown flag has come before. -/
def split (known : List Flag) (leftOver : Bool) : List String → Split
  | [] => .empty
  | a :: rest =>
    if a == "--" then
      if leftOver then { Split.empty with unknown := a :: rest } else { Split.empty with operands := rest }
    else match known.find? (·.word == a) with
      | some .profile =>
        match rest with
        | [] => { Split.empty with incomplete := true }
        | v :: rest => (split known leftOver rest).addProfile v
      | some .lowerCase => { split known leftOver rest with lowerCase := true }
      | some .trace => { split known leftOver rest with trace := true }
      | none =>
        match attachedProfile? known a with
        | some v => (split known leftOver rest).addProfile v
        | none => (split known (leftOver || isFlag a) rest).addWord (leftOver || isFlag a) a

end Command
end GlyphChain
