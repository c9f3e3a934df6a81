import GlyphChain.Profile.Reader
/-!
# Location — where a profile comes from

The one named on the command line, else the one named by the environment, else the bundled one.  An empty name counts
as none, and blanks around a name in the environment do not count.
-/
namespace GlyphChain

inductive Location
  | bundled
  | file (path : String)
  deriving DecidableEq

namespace Location

/-- The variable of the environment that names a profile. -/
def variableName : String := "TEA40_PROFILE"

/-- A path, unless it is empty. -/
def ofPath? (path : String) : Option Location := if path = "" then none else some (.file path)

/-- The location named by an option and an environment, in that order. -/
def resolve (option : Option String) (env : String → Option String) : Location :=
  let trimmed := (env variableName).map Text.trimString
  ((option.bind ofPath?).or (trimmed.bind ofPath?)).getD .bundled

/-- The profile at a location, where `read` gives the bytes of a file. -/
def load (read : String → Except FileFault (List UInt8)) : Location → Except Fault Profile
  | .bundled => .ok Profile.reference
  | .file path =>
    match read path with
    | .ok bytes => Profile.ofBytes path bytes
    | .error cause => .error (.file path cause)

end Location
end GlyphChain
