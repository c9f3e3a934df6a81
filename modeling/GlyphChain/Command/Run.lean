import GlyphChain.Command.Help
import GlyphChain.Command.Request
import GlyphChain.Command.Suggestion
import GlyphChain.Profile.Location
import GlyphChain.Profile.Steps
/-!
# Run — a command line carried out

A run writes as it goes, chunk by chunk, to the output and to the messages; what is written stays written.  It may stop
before its end: with a code, once it has said all there is to say, or at a fault, which is then written out as one last
message.  A run is a function of the command line, the environment and the files.
-/
namespace GlyphChain
namespace Command

/-- A chunk written to the output or to the messages. -/
inductive Write
  | out (chunk : Text)
  | err (chunk : Text)
  deriving DecidableEq

/-- Why a run stops before its end. -/
inductive Stop
  | exit (code : Nat)
  | fault (f : Fault)

/-- A part of a run, on top of what has been written before it. -/
abbrev Act := ExceptT Stop (StateM (List Write))

namespace Act

def write (w : Write) : Act Unit := modify (· ++ [w])

def exit {α : Type} (code : Nat) : Act α := throw (.exit code)

/-- Goes on with what a check gives, or stops at its fault. -/
def check {α : Type} : Except Fault α → Act α
  | .ok a => pure a
  | .error f => throw (.fault f)

end Act

def Write.outLine (line : String) : Write := .out (Text.ofString line ++ "\n")

def Write.errLine (line : Text) : Write := .err (line ++ "\n")

def verified : String := "NOW MARCH BEYOND, AND REVIVE THE LEGACY."

def refuted : String := "THAT IS NOT CORRECT. TRY AGAIN :D"

def UsageFault.message : UsageFault → String
  | .missingProfile => "error: option '--profile <file>' argument missing"
  | .missingText => "error: missing required argument 'text'"
  | .unknownFlag action flag => "error: unknown option '" ++ flag ++ "'" ++ suggestion action flag

/-- A task carried out on a profile, up to its code. -/
def Task.act (p : Profile) : Task → Act Nat
  | .decrypt lowerCase trace => do
    let (words, line) ← Act.check (p.decryptSteps lowerCase)
    if trace then (p.trace words).forM fun l => Act.write (.errLine l)
    Act.write (.out line)
    return 0
  | .encrypt text => do
    let words ← Act.check (p.encryptSteps text)
    words.forM fun w => Act.write (.outLine w.hex)
    return 0
  | .verify text => do
    if ← Act.check (p.verifySteps text) then
      Act.write (.outLine verified)
      return 0
    else
      Act.write (.outLine refuted)
      return 1

/-- A request carried out, where `load` gives the profile of a flag's value. -/
def Request.act (load : Option String → Except Fault Profile) : Request → Act Nat
  | .help topic => do
    Act.write (.out ((topic.map Action.help).getD programHelp))
    Act.exit 0
  | .strayHelp => do
    Act.write (.err programHelp)
    Act.exit 1
  | .bad fault => do
    Act.write (.errLine fault.message)
    Act.exit 1
  | .run profile task => do
    let p ← Act.check (load profile)
    task.act p

/-- All that a run wrote, in order, and its code. -/
structure Transcript where
  writes : List Write
  code : Nat
  deriving DecidableEq

/-- A run from its beginning to its end. -/
def Act.transcript (act : Act Nat) : Transcript :=
  match act.run.run [] with
  | (.ok code, writes) => ⟨writes, code⟩
  | (.error (.exit code), writes) => ⟨writes, code⟩
  | (.error (.fault f), writes) => ⟨writes ++ [.errLine f.message], 1⟩

/-- All that the run of a command line wrote, where `read` gives the bytes of a file. -/
def transcript (argv : List String) (env : String → Option String) (read : String → Except FileFault (List UInt8)) :
    Transcript :=
  ((Request.ofArguments argv).act fun profile => (Location.resolve profile env).load read).transcript

/-- How a run ends: its code, all of its output and all of its messages. -/
structure Outcome where
  code : Nat
  stdout : Text
  stderr : Text
  deriving DecidableEq

def Write.output : Write → Text
  | .out chunk => chunk
  | .err _ => []

def Write.message : Write → Text
  | .out _ => []
  | .err chunk => chunk

def Transcript.outcome (t : Transcript) : Outcome :=
  ⟨t.code, t.writes.flatMap Write.output, t.writes.flatMap Write.message⟩

def run (argv : List String) (env : String → Option String) (read : String → Except FileFault (List UInt8)) :
    Outcome :=
  (transcript argv env read).outcome

end Command
end GlyphChain
