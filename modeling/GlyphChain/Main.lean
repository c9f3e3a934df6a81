import GlyphChain.Command.Run
/-!
# Main — the program

Reads the one variable and the one file that a command line asks for, and puts out what the run writes, in its order.
-/
namespace GlyphChain

/-- The cause of an error in reading a file.  A path through something that is no directory fails when it is opened, and
the error names it; a directory opens, and fails when it is read. -/
def fileFault : IO.Error → FileFault
  | .inappropriateType (some _) _ _ => .notDirectory
  | .inappropriateType none _ _ => .directory
  | _ => .missing

/-- The bytes of a file. -/
def readBytes (path : String) : IO (Except FileFault (List UInt8)) := do
  try
    let bytes ← IO.FS.readBinFile path
    return .ok bytes.toList
  catch e => return .error (fileFault e)

/-- Runs a command line on the system's environment and files. -/
def runArguments (argv : List String) : IO UInt32 := do
  let named ← IO.getEnv Location.variableName
  let env := fun name => if name == Location.variableName then named else none
  let bytes ← match Command.Request.ofArguments argv with
    | .run profile _ =>
      match Location.resolve profile env with
      | .file path => readBytes path
      | .bundled => pure (.error .missing)
    | _ => pure (.error .missing)
  let t := Command.transcript argv env (fun _ => bytes)
  t.writes.forM fun
    | .out chunk => IO.print (Utf8.writable chunk)
    | .err chunk => IO.eprint (Utf8.writable chunk)
  return UInt32.ofNat t.code

end GlyphChain

def main (argv : List String) : IO UInt32 := GlyphChain.runArguments argv
