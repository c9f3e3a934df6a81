import GlyphChain.Proofs.Profile.Located
/-!
# Bundled — the two documents that come with the program

The bundled profile and the table of a profile that has none of its own are documents in files.  Their bytes are read
like those of any other file, and what comes of them is `Profile.reference` and `Glyph.Table.standard`.  The document of
the bundled profile names no glyphs, so the second file decides what the first prints as.
-/
namespace GlyphChain

def fileBytes (lines : List String) : List UInt8 :=
  lines.flatMap fun l => (l.toList ++ ['\n']).flatMap String.utf8EncodeChar

def Profile.bundledLines : List String :=
  ["\x7b",
   "  \"rounds\": 32,",
   "  \"delta\": \"0x9e38538a49\",",
   "  \"key\": [\"0x0c1d00050f\", \"0x0001000137\", \"0x000400022f\", \"0x0065000027\"],",
   "  \"chain\": [",
   "    \"0x058b0e5eda\",",
   "    \"0xf48afab6bb\",",
   "    \"0xf47bfb8cbf\",",
   "    \"0x5fb0c2b766\",",
   "    \"0x8a6528f759\",",
   "    \"0x7acea379b5\",",
   "    \"0xc0850d08ce\"",
   "  ]",
   "\x7d"]

def Glyph.Table.bundledLines : List String :=
  ["[",
   "  \" \", \"A\", \"B\", \"C\", \"D\", \"E\", \"F\", \"G\",",
   "  \"H\", \"I\", \"'\", \"J\", \"K\", \"L\", \"M\", \"N\",",
   "  \"O\", \"P\", \"Q\", \"R\", \"°\", \"\\\"\", \"S\", \"T\",",
   "  \"U\", \"V\", \"W\", \"X\", \"Y\", \"Z\", \"0\", \"1\",",
   "  \"2\", \"3\", \"4\", \"5\", \"6\", \"7\", \"8\", \"9\",",
   "  \".\", \",\", \"(\", \")\", \"+\", \"-\", \"*\", \"/\",",
   "  \"=\", \"$\", \"<\", \">\", \"@\", \";\", \":\", \"‚\"",
   "]"]

/-- The values of the list that a file's bytes are. -/
def Glyph.Table.items? (bytes : List UInt8) : Option (List Value) :=
  match (Doc.read? (Utf8.decode bytes)).map Value.ofWritten with
  | some (.list vs) => some vs
  | _ => none

/-- **The document of the bundled profile is the bundled profile**, whatever its file is called. -/
theorem Profile.ofBytes_bundled (source : String) : ofBytes source (fileBytes bundledLines) = .ok reference :=
  ofBytes_source (by decide +kernel : (ofBytes "" (fileBytes bundledLines)).toOption = some reference) source

/-- **The document of the bundled table is the table of a profile that has none.** -/
theorem Glyph.Table.ofValues_bundled :
    ∃ vs, items? (fileBytes bundledLines) = some vs ∧ Table.ofValues "data/glyphs.json" vs = .ok standard := by
  have h : ((items? (fileBytes bundledLines)).bind fun vs => (Table.ofValues "data/glyphs.json" vs).toOption) =
      some standard := by decide +kernel
  obtain ⟨vs, hvs, htable⟩ := Option.bind_eq_some_iff.1 h
  exact ⟨vs, hvs, eq_ok_of_toOption htable⟩

/-- **A path to the bundled file finds what is found without a path.** -/
theorem Profile.found_bundled {option : Option String} {env : String → Option String}
    {read : String → Except FileFault (List UInt8)} {path : String} (hpath : path ≠ "")
    (hread : read path = .ok (fileBytes bundledLines)) (habsent : option = none ∨ option = some "")
    (hblank : ∀ value, env "TEA40_PROFILE" = some value → Text.Trimmed Text.blankChar value.toList [])
    (found : Except Fault Profile) : Found (some path) env read found ↔ Found option env read found := by
  have hgiven : Found (some path) env read (.ok reference) := by
    refine .option rfl hpath ?_
    rw [← ofBytes_bundled path]
    exact .bytes hread
  have hnone : Found option env read (.ok reference) := .bundled habsent hblank
  rw [Location.found_iff, ← Location.eq_of_found hgiven, Location.found_iff, ← Location.eq_of_found hnone]

end GlyphChain
