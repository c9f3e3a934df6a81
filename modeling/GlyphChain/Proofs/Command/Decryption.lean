import GlyphChain.Proofs.Command.Order
import GlyphChain.Proofs.Glyph.Printing
/-!
# Decryption — the action that need not be named, and its two switches

A command line whose first operand calls nothing asks for the same as with the word `decrypt` before it
(`decrypt_word_optional`).  Since the words of an action can be sorted out at once, a switch before the others does
nothing but set its own mark: either all the words ask for no decryption and the switch makes no difference, or it
changes the one thing it is for (`switch_cases`).  A profile that loads has a checked table, so lowering its glyphs is
lowering the line.
-/
namespace GlyphChain

namespace Command

/-! ## The action that need not be named -/

theorem ofName?_eq_none {a : String} (h : a ∉ ["decrypt", "encrypt", "verify"]) : Action.ofName? a = none := by
  simp only [List.mem_cons, List.not_mem_nil, or_false, not_or] at h
  obtain ⟨hdecrypt, hencrypt, hverify⟩ := h
  simp [Action.ofName?, Action.name, Ne.symm hdecrypt, Ne.symm hencrypt, Ne.symm hverify]

theorem ofArguments_unnamed {ws : List String}
    (hfirst : ∀ a, (split [] false ws).operands.head? = some a → a ∉ ["decrypt", "encrypt", "verify", "help"])
    (hhelp : ∀ a ∈ (split [] false ws).unknown, a ≠ "-h" ∧ a ≠ "--help") :
    Request.ofArguments ws = .ofAction .decrypt (split [] false ws).operands (split [] false ws).unknown := by
  have hany : (split [] false ws).unknown.any isHelp = false := by
    rw [List.any_eq_false]
    intro a ha
    simp [isHelp, hhelp a ha]
  have hdefault : ∀ operands, Request.ofDefault operands (split [] false ws).unknown =
      .ofAction .decrypt operands (split [] false ws).unknown := by
    intro operands
    rw [Request.ofDefault, hany]
    exact if_neg Bool.false_ne_true
  unfold Request.ofArguments
  cases hoperands : (split [] false ws).operands with
  | nil => simp only [hoperands, hdefault]
  | cons first rest =>
    have hmem := hfirst first (by rw [hoperands]; rfl)
    have hname : Action.ofName? first = none := ofName?_eq_none (fun h => hmem (List.mem_append_left ["help"] h))
    have hne : (first == "help") = false := by
      rw [beq_eq_false_iff_ne]
      rintro rfl
      exact hmem (by decide)
    simp only [hoperands, hname, hne, hdefault, Bool.false_eq_true, if_false]

/-- **The word `decrypt` is optional.**  Let the words of a command line, sorted out with no flag known, have no operand
or a first one that calls no action and is not `help`, and let no word that is left over ask for help.  Then the run is
the same with `decrypt` before the words as without it. -/
theorem decrypt_word_optional {argv : List String} (env : String → Option String)
    (read : String → Except FileFault (List UInt8))
    (hfirst : ∀ a, (split [] false argv).operands.head? = some a → a ∉ ["decrypt", "encrypt", "verify", "help"])
    (hhelp : ∀ a ∈ (split [] false argv).unknown, a ≠ "-h" ∧ a ≠ "--help") :
    run argv env read = run ("decrypt" :: argv) env read := by
  have hnamed : Request.ofArguments ("decrypt" :: argv) =
      .ofAction .decrypt (split [] false argv).operands (split [] false argv).unknown := ofArguments_name .decrypt argv
  rw [run, run, transcript, transcript, ofArguments_unnamed hfirst hhelp, hnamed]

/-- The name of another action as a profile and as an operand, the end of the flags before a word that asks for help,
and a flag that no action knows. -/
theorem decrypt_word_optional_crowded :
    let env : String → Option String := fun _ => none
    let read : String → Except FileFault (List UInt8) := fun _ => .error .missing
    run ["", "--profile", "verify", "encrypt", "--trace"] env read =
        run ["decrypt", "", "--profile", "verify", "encrypt", "--trace"] env read ∧
      run ["-", "--", "--help"] env read = run ["decrypt", "-", "--", "--help"] env read ∧
      run ["--trac", "help"] env read = run ["decrypt", "--trac", "help"] env read := by
  intro env read
  refine ⟨decrypt_word_optional env read ?_ ?_, decrypt_word_optional env read ?_ ?_,
    decrypt_word_optional env read ?_ ?_⟩ <;> decide

/-! ## Its two switches -/

theorem ofArguments_eq_ofAction (action : Action) (ws : List String) :
    Request.ofArguments (action.name :: ws) = .ofAction action [] ws := by
  rw [ofArguments_name, sorted_eq_split]
  rfl

/-- **What a switch before the other words changes**: nothing if the words do not come to a decryption, and else only
whether that switch is set. -/
theorem switch_cases (ws : List String) :
    (∃ r, (∀ profile task, r ≠ .run profile task) ∧ Request.ofArguments ("decrypt" :: ws) = r ∧
      Request.ofArguments ("decrypt" :: "--trace" :: ws) = r ∧
      Request.ofArguments ("decrypt" :: "--lower-case" :: ws) = r) ∨
    ∃ profile lowerCase trace, Request.ofArguments ("decrypt" :: ws) = .run profile (.decrypt lowerCase trace) ∧
      Request.ofArguments ("decrypt" :: "--trace" :: ws) = .run profile (.decrypt lowerCase true) ∧
      Request.ofArguments ("decrypt" :: "--lower-case" :: ws) = .run profile (.decrypt true trace) := by
  have hrequest : ∀ ws, Request.ofArguments ("decrypt" :: ws) = .ofAction .decrypt [] ws :=
    ofArguments_eq_ofAction .decrypt
  have htrace : split Action.decrypt.flags false ("--trace" :: ws) =
      { split Action.decrypt.flags false ws with trace := true } := split_item (.trace (by decide)) ws
  have hlower : split Action.decrypt.flags false ("--lower-case" :: ws) =
      { split Action.decrypt.flags false ws with lowerCase := true } := split_item (.lowerCase (by decide)) ws
  rw [hrequest, hrequest, hrequest]
  unfold Request.ofAction
  simp only [htrace, hlower]
  generalize split Action.decrypt.flags false ws = s
  by_cases hincomplete : s.incomplete = true
  · exact .inl ⟨.bad .missingProfile, by simp, by simp [hincomplete], by simp [hincomplete], by simp [hincomplete]⟩
  · by_cases hhelp : s.unknown.any isHelp = true
    · refine .inl ⟨.help (some .decrypt), by simp, ?_, ?_, ?_⟩ <;> simp only [hincomplete, hhelp] <;> rfl
    · cases hunknown : s.unknown with
      | nil =>
        refine .inr ⟨s.profile, s.lowerCase, s.trace, ?_, ?_, ?_⟩ <;>
          simp [hincomplete, Request.ofSplit]
      | cons flag rest =>
        rw [hunknown] at hhelp
        refine .inl ⟨.bad (.unknownFlag .decrypt flag), by simp, ?_, ?_, ?_⟩ <;> simp only [hincomplete, hhelp] <;> rfl

/-- A request to decrypt whose profile loads as `p`. -/
def Request.Decrypts (load : Option String → Except Fault Profile) (r : Request) (p : Profile) : Prop :=
  ∃ profile lowerCase trace, r = .run profile (.decrypt lowerCase trace) ∧ load profile = .ok p

section
variable {load : Option String → Except Fault Profile} {profile : Option String} {lowerCase trace : Bool} {p : Profile}

theorem decrypts_run_iff :
    (Request.run profile (.decrypt lowerCase trace)).Decrypts load p ↔ load profile = .ok p := by
  constructor
  · rintro ⟨_, _, _, hrun, hload⟩
    cases hrun
    exact hload
  · intro hload
    exact ⟨profile, lowerCase, trace, rfl, hload⟩

theorem not_decrypts_of_ne {r : Request} (h : ∀ profile task, r ≠ .run profile task) : ¬ r.Decrypts load p := by
  rintro ⟨profile, lowerCase, trace, rfl, -⟩
  exact h profile (.decrypt lowerCase trace) rfl

theorem result_decrypt (h : load profile = .ok p) :
    ((Request.run profile (.decrypt lowerCase trace)).result load).outcome =
      ⟨0, p.line lowerCase, if trace then unlines (p.trace p.decrypted) else ""⟩ := by
  simp only [Request.result, h]
  cases trace with
  | true =>
    exact congrArg₂ (Outcome.mk 0) (outputs_trace _ (p.line lowerCase)) (messages_trace _ (p.line lowerCase))
  | false => exact congrArg (Outcome.mk 0 · "") (List.append_nil (p.line lowerCase))

theorem result_error {fault : Fault} (h : load profile = .error fault) (task : Task) :
    (Request.run profile task).result load = .failed fault.message := by
  simp only [Request.result, h]

theorem line_lowered (h : p.Accepted) (lowerCase : Bool) : p.line true = (p.line lowerCase).map Text.lowerUnit := by
  cases lowerCase with
  | true => exact (h.glyphs.line_map_lowerUnit p.decrypted).symm
  | false => exact h.glyphs.line_lower p.decrypted

end

/-- **The two switches of a decryption act only where they should**, whatever the other words, the environment and the
files are.  With either switch before the words the run is a successful decryption of a profile exactly if it is without.
If it is one, `--trace` puts the lines of the trace on the messages and leaves the code and the output alone, and
`--lower-case` puts the letters from `A` to `Z` in the output into lower case, changes nothing else in it and
leaves the code and the messages alone.  If it is none, the switch changes nothing at all. -/
theorem switches_act_alone (ws : List String) (env : String → Option String)
    (read : String → Except FileFault (List UInt8)) :
    let load := fun profile => (Location.resolve profile env).load read
    let plain := run ("decrypt" :: ws) env read
    let traced := run ("decrypt" :: "--trace" :: ws) env read
    let lowered := run ("decrypt" :: "--lower-case" :: ws) env read
    (∀ p, ((Request.ofArguments ("decrypt" :: "--trace" :: ws)).Decrypts load p ↔
        (Request.ofArguments ("decrypt" :: ws)).Decrypts load p) ∧
      ((Request.ofArguments ("decrypt" :: "--lower-case" :: ws)).Decrypts load p ↔
        (Request.ofArguments ("decrypt" :: ws)).Decrypts load p)) ∧
    (∀ p, (Request.ofArguments ("decrypt" :: ws)).Decrypts load p → plain.code = 0 ∧
      traced = { plain with stderr := unlines (p.trace p.decrypted) } ∧
      lowered = { plain with stdout := plain.stdout.map Text.lowerUnit }) ∧
    ((∀ p, ¬ (Request.ofArguments ("decrypt" :: ws)).Decrypts load p) → traced = plain ∧ lowered = plain) := by
  intro load plain traced lowered
  have hplain : plain = ((Request.ofArguments ("decrypt" :: ws)).result load).outcome := run_eq _ env read
  have htraced : traced = ((Request.ofArguments ("decrypt" :: "--trace" :: ws)).result load).outcome :=
    run_eq _ env read
  have hlowered : lowered = ((Request.ofArguments ("decrypt" :: "--lower-case" :: ws)).result load).outcome :=
    run_eq _ env read
  obtain ⟨r, hne, hr, hrtrace, hrlower⟩ | ⟨profile, lowerCase, trace, hr, hrtrace, hrlower⟩ := switch_cases ws
  · rw [hplain, htraced, hlowered, hr, hrtrace, hrlower]
    exact ⟨fun p => ⟨Iff.rfl, Iff.rfl⟩, fun p hp => absurd hp (not_decrypts_of_ne hne), fun _ => ⟨rfl, rfl⟩⟩
  · rw [hplain, htraced, hlowered, hr, hrtrace, hrlower]
    refine ⟨fun p => ⟨decrypts_run_iff.trans decrypts_run_iff.symm, decrypts_run_iff.trans decrypts_run_iff.symm⟩,
      fun p hp => ?_, fun hnone => ?_⟩
    · have hload : load profile = .ok p := decrypts_run_iff.1 hp
      rw [result_decrypt hload, result_decrypt hload, result_decrypt hload,
        line_lowered (Location.accepted_of_load hload) lowerCase]
      exact ⟨rfl, rfl, rfl⟩
    · cases hload : load profile with
      | ok p => exact absurd (decrypts_run_iff.2 hload) (hnone p)
      | error fault =>
        rw [result_error hload, result_error hload, result_error hload]
        exact ⟨rfl, rfl⟩

/-- The bundled profile with a switch twice and an operand, and a profile that is missing. -/
theorem switches_act_alone_twice :
    let env : String → Option String := fun _ => none
    let read : String → Except FileFault (List UInt8) := fun _ => .error .missing
    (run ["decrypt", "--lower-case", "--lower-case", "X"] env read).stdout =
        (run ["decrypt", "--lower-case", "X"] env read).stdout.map Text.lowerUnit ∧
      (run ["decrypt", "--trace", "--lower-case", "X"] env read).stdout =
        (run ["decrypt", "--lower-case", "X"] env read).stdout ∧
      run ["decrypt", "--trace", "--profile=gone"] env read = run ["decrypt", "--profile=gone"] env read := by
  intro env read
  obtain ⟨-, hsome, -⟩ := switches_act_alone ["--lower-case", "X"] env read
  obtain ⟨-, -, hnone⟩ := switches_act_alone ["--profile=gone"] env read
  have hdecrypts : (Request.ofArguments ["decrypt", "--lower-case", "X"]).Decrypts
      (fun profile => (Location.resolve profile env).load read) Profile.reference := ⟨none, true, false, rfl, rfl⟩
  obtain ⟨-, htraced, hlowered⟩ := hsome _ hdecrypts
  refine ⟨by rw [hlowered], by rw [htraced], (hnone ?_).1⟩
  rintro p ⟨profile, lowerCase, trace, hrun, hload⟩
  cases hrun
  cases hload

end Command
end GlyphChain
