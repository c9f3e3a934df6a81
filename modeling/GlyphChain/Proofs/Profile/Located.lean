import GlyphChain.Profile.Location
import GlyphChain.Proofs.Profile.Accepted
import GlyphChain.Proofs.Text.Grammar
/-!
# Located — the profile that a run works on

`Found` says what comes of looking for a profile: the bytes of the file that an option names, else of the one that the
environment names between blanks, read as a profile, or the fault of a file without bytes; and the bundled profile if
nothing is named.  There is always exactly one thing to find (`found_iff`), and a profile that loads passed the checks of
a profile (`accepted_of_load`).
-/
namespace GlyphChain

/-- What a file gives: its bytes read as a profile, or why it has none. -/
inductive Profile.Opened (read : String → Except FileFault (List UInt8)) (path : String) : Except Fault Profile → Prop
  | bytes {bytes : List UInt8} (given : read path = .ok bytes) : Opened read path (Profile.ofBytes path bytes)
  | unreadable {cause : FileFault} (given : read path = .error cause) : Opened read path (.error (.file path cause))

/-- What is found for an option: the file of a path that is not empty, else the file that the environment names between
blanks, else the bundled profile. -/
inductive Profile.Found (option : Option String) (env : String → Option String)
    (read : String → Except FileFault (List UInt8)) : Except Fault Profile → Prop
  | option {path : String} {found : Except Fault Profile} (given : option = some path) (nonempty : path ≠ "")
      (opened : Opened read path found) : Found option env read found
  | environment {value : String} {raw : List Char} {found : Except Fault Profile}
      (absent : option = none ∨ option = some "") (given : env "TEA40_PROFILE" = some value)
      (trimmed : Text.Trimmed Text.blankChar value.toList raw) (nonempty : raw ≠ [])
      (opened : Opened read (String.ofList raw) found) : Found option env read found
  | bundled (absent : option = none ∨ option = some "")
      (blank : ∀ value, env "TEA40_PROFILE" = some value → Text.Trimmed Text.blankChar value.toList []) :
      Found option env read (.ok Profile.reference)

theorem eq_ok_of_toOption {ε α : Type} {x : Except ε α} {a : α} (h : x.toOption = some a) : x = .ok a := by
  cases x with
  | error e => cases h
  | ok b => cases h; rfl

/-- **Bytes are the same profile whatever their source is called.** -/
theorem Profile.ofBytes_source {source : String} {bytes : List UInt8} {p : Profile}
    (h : (ofBytes source bytes).toOption = some p) (source' : String) : ofBytes source' bytes = .ok p := by
  have h := eq_ok_of_toOption h
  unfold ofBytes at h ⊢
  split at h
  · exact ofValue_eq_ok_iff.2 (ofValue_eq_ok_iff.1 h)
  · cases h

namespace Location

variable {option : Option String} {env : String → Option String} {read : String → Except FileFault (List UInt8)}
  {found : Except Fault Profile} {path : String}

theorem opened_iff : Profile.Opened read path found ↔ found = (Location.file path).load read := by
  constructor
  · rintro (⟨hread⟩ | ⟨hread⟩) <;> simp only [load, hread]
  · rintro rfl
    cases hread : read path with
    | ok bytes => simpa only [load, hread] using Profile.Opened.bytes hread
    | error cause => simpa only [load, hread] using Profile.Opened.unreadable hread

/-! ## The order of the places -/

theorem resolve_option (h : path ≠ "") : resolve (some path) env = .file path := by
  simp [resolve, ofPath?, h]

theorem resolve_absent (h : option = none ∨ option = some "") :
    resolve option env = (((env variableName).map Text.trimString).bind ofPath?).getD .bundled := by
  rcases h with rfl | rfl <;> rfl

theorem ofPath?_trimString {value : String} {raw : List Char} (h : Text.Trimmed Text.blankChar value.toList raw) :
    ofPath? (Text.trimString value) = if raw = [] then none else some (.file (String.ofList raw)) := by
  have hempty : String.ofList raw = "" ↔ raw = [] := by
    rw [← String.toList_inj, String.toList_ofList]
    rfl
  rw [Text.trimString, h.strip_eq, ofPath?]
  simp only [hempty]

theorem eq_of_found (h : Profile.Found option env read found) : found = (resolve option env).load read := by
  cases h with
  | option given nonempty opened =>
    rw [given, resolve_option nonempty]
    exact opened_iff.1 opened
  | @environment value raw _ absent given trimmed nonempty opened =>
    have hplace : resolve option env = .file (String.ofList raw) := by
      rw [resolve_absent absent, show env variableName = some value from given, Option.map_some, Option.bind_some,
        ofPath?_trimString trimmed, if_neg nonempty, Option.getD_some]
    rw [hplace]
    exact opened_iff.1 opened
  | bundled absent blank =>
    have hplace : resolve option env = .bundled := by
      rw [resolve_absent absent]
      cases hvalue : env variableName with
      | none => rfl
      | some value => rw [Option.map_some, Option.bind_some, ofPath?_trimString (blank value hvalue)]; rfl
    rw [hplace]
    rfl

theorem found_resolve (option : Option String) (env : String → Option String)
    (read : String → Except FileFault (List UInt8)) :
    Profile.Found option env read ((resolve option env).load read) := by
  by_cases hoption : option = none ∨ option = some ""
  · rw [resolve_absent hoption]
    cases hvalue : env variableName with
    | none => exact .bundled hoption (fun value h => by cases hvalue.symm.trans h)
    | some value =>
      have htrimmed := Text.trimmed_strip Text.blankChar value.toList
      rw [Option.map_some, Option.bind_some, ofPath?_trimString htrimmed]
      by_cases hraw : Text.strip Text.blankChar value.toList = []
      · rw [if_pos hraw]
        refine .bundled hoption (fun other h => ?_)
        obtain rfl : value = other := Option.some.inj (hvalue.symm.trans h)
        exact Text.trimmed_iff.2 hraw
      · rw [if_neg hraw, Option.getD_some]
        exact .environment hoption hvalue htrimmed hraw (opened_iff.2 rfl)
  · obtain ⟨hnone, hempty⟩ := not_or.1 hoption
    obtain ⟨path, rfl⟩ := Option.ne_none_iff_exists'.1 hnone
    have hpath : path ≠ "" := fun h => hempty (congrArg some h)
    rw [resolve_option hpath]
    exact .option rfl hpath (opened_iff.2 rfl)

/-- **There is exactly one thing to find**, and it is what loading gives. -/
theorem found_iff : Profile.Found option env read found ↔ found = (resolve option env).load read :=
  ⟨eq_of_found, fun h => h ▸ found_resolve option env read⟩

/-- **A profile that loads passed the checks of a profile.** -/
theorem accepted_of_load {location : Location} {p : Profile} (h : location.load read = .ok p) : p.Accepted := by
  unfold load at h
  split at h
  · cases h
    exact Profile.accepted_reference
  · split at h
    · unfold Profile.ofBytes at h
      split at h
      · exact Profile.accepted_of_ofValue h
      · cases h
    · cases h

end Location
end GlyphChain
