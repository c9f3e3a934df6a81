import GlyphChain.Command.Arguments
import GlyphChain.Text.Units
/-!
# Help — the help texts

One text for the program and one for each action, as they are printed.
-/
namespace GlyphChain
namespace Command

/-- Lines in one text, each ended. -/
def unlines (lines : List String) : Text := lines.flatMap (fun l => Text.ofString l ++ "\n")

def programHelp : Text := unlines
  ["Usage: tea40 [options] [command]",
   "",
   "Decrypt a chained 40-bit XTEA-style ciphertext and print it through the glyph",
   "table.",
   "",
   "Options:",
   "  -h, --help                display help for command",
   "",
   "Commands:",
   "  decrypt [options]         decrypt the profile's chain (last block first) and",
   "                            print the glyph line",
   "  encrypt [options] <text>  encode text through the glyph table, encrypt it as",
   "                            a chain and print the words",
   "  verify [options] <text>   check whether text encrypts to the profile's chain",
   "  help [command]            display help for command"]

/-- The lines on the profile flag. -/
def profileHelp : List String :=
  ["  --profile <file>  cipher profile JSON (default: $TEA40_PROFILE, else the",
   "                    bundled reference profile)"]

def helpHelp : String := "  -h, --help        display help for command"

def Action.help : Action → Text
  | .decrypt => unlines <|
    ["Usage: tea40 decrypt [options]",
     "",
     "decrypt the profile's chain (last block first) and print the glyph line",
     "",
     "Options:"] ++ profileHelp ++
    ["  --lower-case      print ASCII capitals in lower case",
     "  --trace           dump key, stored chain and decrypted chain to stderr",
     helpHelp]
  | .encrypt => unlines <|
    ["Usage: tea40 encrypt [options] <text>",
     "",
     "encode text through the glyph table, encrypt it as a chain and print the words",
     "",
     "Arguments:",
     "  text              plaintext to encode",
     "",
     "Options:"] ++ profileHelp ++ [helpHelp]
  | .verify => unlines <|
    ["Usage: tea40 verify [options] <text>",
     "",
     "check whether text encrypts to the profile's chain",
     "",
     "Arguments:",
     "  text              candidate plaintext",
     "",
     "Options:"] ++ profileHelp ++ [helpHelp]

end Command
end GlyphChain
