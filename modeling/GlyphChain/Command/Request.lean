import GlyphChain.Command.Arguments
/-!
# Request — what a command line asks for

The first operand calls an action or asks for help; without either the action is to decrypt.  The words before the
first flag are sorted out without knowing any flag, so that a command line that starts with a flag is always one to
decrypt.
-/
namespace GlyphChain
namespace Command

inductive Task
  | decrypt (lowerCase trace : Bool)
  | encrypt (text : String)
  | verify (text : String)

/-- What is wrong with a command line. -/
inductive UsageFault
  | missingProfile
  | missingText
  | unknownFlag (action : Action) (flag : String)

inductive Request
  /-- The help of the program or of one action. -/
  | help (topic : Option Action)
  /-- Help on something there is no help for. -/
  | strayHelp
  | bad (fault : UsageFault)
  | run (profile : Option String) (task : Task)

namespace Request

/-- The task of an action with its flags and operands; words after the first operand do not count. -/
def ofSplit (action : Action) (s : Split) (operands : List String) : Request :=
  match action, operands with
  | .decrypt, _ => .run s.profile (.decrypt s.lowerCase s.trace)
  | .encrypt, [] | .verify, [] => .bad .missingText
  | .encrypt, text :: _ => .run s.profile (.encrypt text)
  | .verify, text :: _ => .run s.profile (.verify text)

/-- What an action is asked for by operands and by words still to be sorted out. -/
def ofAction (action : Action) (operands words : List String) : Request :=
  let s := split action.flags false words
  if s.incomplete then .bad .missingProfile
  else if s.unknown.any isHelp then .help (some action)
  else match s.unknown with
    | flag :: _ => .bad (.unknownFlag action flag)
    | [] => ofSplit action s (operands ++ s.operands)

/-- What the words after `help` ask for; an empty topic counts as none. -/
def ofHelp : List String → Request
  | [] => .help none
  | topic :: _ =>
    match Action.ofName? topic with
    | some action => .help (some action)
    | none => if topic = "" then .help none else .strayHelp

/-- What is asked for without naming an action. -/
def ofDefault (operands words : List String) : Request :=
  if words.any isHelp then .help none else ofAction .decrypt operands words

/-- What a command line asks for. -/
def ofArguments (argv : List String) : Request :=
  let top := split [] false argv
  match top.operands with
  | [] => ofDefault [] top.unknown
  | first :: rest =>
    match Action.ofName? first with
    | some action => ofAction action rest top.unknown
    | none => if first == "help" then ofHelp rest else ofDefault (first :: rest) top.unknown

end Request
end Command
end GlyphChain
