import GlyphChain.Proofs.Command.Transcript
import GlyphChain.Proofs.Text.Points
import Mathlib.Logic.ExistsUnique
/-!
# Discipline — the three ways a run ends

A run succeeds, fails or refutes a text.  `result_cases` says once what can come of a request: writes to the output
alone, a whole trace before the line, one message and nothing else, or the line that refutes a text and nothing else.  No
two of the three endings fit one outcome (`Ending.Describes.unique`), and a message never begins like a trace
(`Request.Complains.noTrace`).
-/
namespace GlyphChain
namespace Command

open Word (low blockBits)

inductive Ending
  | succeeded
  | failed
  | refuted

section
variable (env : String → Option String) (read : String → Except FileFault (List UInt8))

/-- A request to decrypt with a trace, whose profile is found as `p`. -/
def Request.Traces (r : Request) (p : Profile) : Prop :=
  ∃ profile lowerCase, r = .run profile (.decrypt lowerCase true) ∧ Profile.Found profile env read (.ok p)

/-- A request to verify a text that does not encrypt to the chain of its profile, which is found. -/
def Request.Mismatches (r : Request) : Prop :=
  ∃ profile text p, r = .run profile (.verify text) ∧ Profile.Found profile env read (.ok p) ∧
    p.encrypt text ≠ p.chain.map (low blockBits)

/-- The one message of a request that fails. -/
inductive Request.Complains : Request → Text → Prop
  | strayHelp : Complains .strayHelp programHelp
  | usage (fault : UsageFault) : Complains (.bad fault) (Text.ofString fault.message ++ "\n")
  | profile {profile : Option String} {fault : Fault} (h : Profile.Found profile env read (.error fault)) (task : Task) :
    Complains (.run profile task) (fault.message ++ "\n")

/-- What the outcome of a request looks like if it ends in one of the three ways. -/
def Ending.Describes (r : Request) (o : Outcome) : Ending → Prop
  | .succeeded => o.code = 0 ∧ ((∃ p, r.Traces env read p ∧ o.stderr = unlines (p.trace p.decrypted)) ∨
      (∀ p, ¬ r.Traces env read p) ∧ o.stderr = "")
  | .failed => o.code = 1 ∧ o.stdout = "" ∧ o.stderr ≠ ""
  | .refuted => o.code = 1 ∧ o.stdout = unlines [Command.refuted] ∧ o.stderr = ""

end

/-! ## Texts that do not begin like a trace -/

/-- A text that begins, and with another unit than a trace. -/
def NoTrace (t : Text) : Prop := ∃ u, t.head? = some u ∧ u ≠ 0x2D

theorem NoTrace.append {s : Text} (h : NoTrace s) (t : Text) : NoTrace (s ++ t) := by
  obtain ⟨u, hu, hne⟩ := h
  exact ⟨u, by rw [List.head?_append, hu, Option.some_or], hne⟩

theorem NoTrace.append_string {s : String} (h : NoTrace (Text.ofString s)) (t : String) :
    NoTrace (Text.ofString (s ++ t)) := by
  rw [Text.ofString_append]
  exact h.append t

theorem NoTrace.ne_empty {t : Text} (h : NoTrace t) : t ≠ "" := by
  rintro rfl
  obtain ⟨u, hu, -⟩ := h
  cases hu

theorem head?_trace (p : Profile) (words : List Word) : (unlines (p.trace words)).head? = some 0x2D := rfl

/-- **No part of a trace stands at the beginning of such a text.** -/
theorem NoTrace.not_isPrefix {s : Text} (h : NoTrace s) (p : Profile) (words : List Word) {t : Text}
    (ht : t ≠ []) (htrace : t <+: unlines (p.trace words)) : ¬ t <+: s := by
  rintro ⟨after, hs⟩
  obtain ⟨u, hu, hne⟩ := h
  obtain ⟨v, rest, rfl⟩ := List.exists_cons_of_ne_nil ht
  obtain ⟨after', hafter'⟩ := htrace
  have hv : some v = some 0x2D := by rw [← head?_trace p words, ← hafter']; rfl
  have hv' : some v = some u := by rw [← hu, ← hs]; rfl
  rw [hv, Option.some.injEq] at hv'
  exact hne hv'.symm

theorem noTrace_message (f : Fault) : NoTrace f.message := by
  refine NoTrace.append (NoTrace.append ?_ _) _
  cases f with
  | file path cause =>
    cases cause <;> simp only [Fault.label, FileFault.label] <;> exact ⟨0x45, rfl, by decide⟩
  | _ =>
    simp only [Fault.label]
    exact ⟨0x49, rfl, by decide⟩

theorem noTrace_usage (f : UsageFault) : NoTrace (Text.ofString f.message) := by
  cases f with
  | missingProfile => exact ⟨0x65, by decide +kernel, by decide⟩
  | missingText => exact ⟨0x65, by decide +kernel, by decide⟩
  | unknownFlag action flag =>
    refine NoTrace.append_string (NoTrace.append_string (NoTrace.append_string ?_ flag) "'") (suggestion action flag)
    exact ⟨0x65, by decide +kernel, by decide⟩

/-! ## One request -/

section
variable {env : String → Option String} {read : String → Except FileFault (List UInt8)}

theorem Request.Complains.noTrace {r : Request} {m : Text} (h : r.Complains env read m) : NoTrace m := by
  cases h with
  | strayHelp => exact ⟨0x55, by decide +kernel, by decide⟩
  | usage fault => exact (noTrace_usage fault).append _
  | profile hfound task => exact (noTrace_message _).append _

theorem not_traces_of_ne {r : Request} (h : ∀ profile lowerCase, r ≠ .run profile (.decrypt lowerCase true))
    (p : Profile) : ¬ r.Traces env read p := by
  rintro ⟨profile, lowerCase, hr, -⟩
  exact h profile lowerCase hr

variable (env read)

/-- **What can come of a request.** -/
theorem result_cases (r : Request) :
    let result := r.result fun profile => (Location.resolve profile env).load read
    (∃ chunks : List Text, result = ⟨chunks.map Write.out, 0⟩ ∧ ∀ p, ¬ r.Traces env read p) ∨
    (∃ p line, result = ⟨traceWrites (p.trace p.decrypted) ++ [.out line], 0⟩ ∧ r.Traces env read p) ∨
    (∃ m, result = ⟨[.err m], 1⟩ ∧ r.Complains env read m) ∨
    (result = ⟨[.outLine refuted], 1⟩ ∧ r.Mismatches env read) := by
  intro result
  cases r with
  | help topic => exact .inl ⟨[_], rfl, not_traces_of_ne (fun _ _ h => by cases h)⟩
  | strayHelp => exact .inr (.inr (.inl ⟨_, rfl, .strayHelp⟩))
  | bad fault => exact .inr (.inr (.inl ⟨_, rfl, .usage fault⟩))
  | run profile task =>
    cases hload : (Location.resolve profile env).load read with
    | error fault =>
      have hresult : result = .failed fault.message := by simp only [result, Request.result, hload]
      exact .inr (.inr (.inl ⟨_, hresult, .profile (Location.found_iff.2 hload.symm) task⟩))
    | ok p =>
      -- nothing can fail any more: each task comes to its end on the loaded profile
      have hresult : result = task.result p := by simp only [result, Request.result, hload]
      have hfound : Profile.Found profile env read (.ok p) := Location.found_iff.2 hload.symm
      rw [hresult]
      cases task with
      | decrypt lowerCase trace =>
        cases trace with
        | true => exact .inr (.inl ⟨p, _, rfl, profile, lowerCase, rfl, hfound⟩)
        | false => exact .inl ⟨[_], rfl, not_traces_of_ne (fun _ _ h => by cases h)⟩
      | encrypt text =>
        refine .inl ⟨(p.encrypt text).map fun w => Text.ofString w.hex ++ "\n", ?_, ?_⟩
        · rw [List.map_map]
          rfl
        · exact not_traces_of_ne (fun _ _ h => by cases h)
      | verify text =>
        by_cases hv : p.encrypt text = p.chain.map (low blockBits)
        · exact .inl ⟨[_], if_pos hv, not_traces_of_ne (fun _ _ h => by cases h)⟩
        · exact .inr (.inr (.inr ⟨if_neg hv, profile, text, p, rfl, hfound, hv⟩))

theorem exists_describes (r : Request) : ∃ e : Ending, e.Describes env read r
    (r.result fun profile => (Location.resolve profile env).load read).outcome := by
  obtain ⟨chunks, ho, hr⟩ | ⟨p, line, ho, hr⟩ | ⟨m, ho, hm⟩ | ⟨ho, -⟩ := result_cases env read r
  · exact ⟨.succeeded, by rw [ho]; exact ⟨rfl, .inr ⟨hr, messages_chunks chunks⟩⟩⟩
  · exact ⟨.succeeded, by rw [ho]; exact ⟨rfl, .inl ⟨p, hr, messages_trace _ line⟩⟩⟩
  · exact ⟨.failed, by rw [ho, outcome_err]; exact ⟨rfl, rfl, hm.noTrace.ne_empty⟩⟩
  · exact ⟨.refuted, by rw [ho]; exact ⟨rfl, rfl, rfl⟩⟩

variable {env read}

/-- **No outcome ends in two ways**: the code tells success from the other two, and a message tells these apart. -/
theorem Ending.Describes.unique {r : Request} {o : Outcome} {e e' : Ending} (h : e.Describes env read r o)
    (h' : e'.Describes env read r o) : e = e' := by
  have hcode : ¬ (0 : Nat) = 1 := by decide
  cases e with
  | succeeded =>
    cases e' with
    | succeeded => rfl
    | failed => exact absurd (h.1.symm.trans h'.1) hcode
    | refuted => exact absurd (h.1.symm.trans h'.1) hcode
  | failed =>
    cases e' with
    | succeeded => exact absurd (h'.1.symm.trans h.1) hcode
    | failed => rfl
    | refuted => exact absurd h'.2.2 h.2.2
  | refuted =>
    cases e' with
    | succeeded => exact absurd (h'.1.symm.trans h.1) hcode
    | failed => exact absurd h.2.2 h'.2.2
    | refuted => rfl

variable (env read)

theorem describes_refuted_iff (r : Request) : Ending.refuted.Describes env read r
    (r.result fun profile => (Location.resolve profile env).load read).outcome ↔ r.Mismatches env read := by
  constructor
  · rintro ⟨hcode, -, herr⟩
    obtain ⟨chunks, ho, -⟩ | ⟨p, line, ho, -⟩ | ⟨m, ho, hm⟩ | ⟨-, hr⟩ := result_cases env read r
    · rw [ho] at hcode; cases hcode
    · rw [ho] at hcode; cases hcode
    · rw [ho, outcome_err] at herr; exact absurd herr hm.noTrace.ne_empty
    · exact hr
  · rintro ⟨profile, text, p, rfl, hfound, hv⟩
    simp only [Request.result, ← Location.found_iff.1 hfound, Task.result, if_neg hv]
    exact ⟨rfl, rfl, rfl⟩

/-- **A request that does not succeed writes one whole text, and no part of a trace.** -/
theorem nothing_partial {r : Request} {result : Transcript}
    (hresult : result = r.result fun profile => (Location.resolve profile env).load read) (hcode : result.code ≠ 0) :
    ((∃ m, result.writes = [.err m] ∧ r.Complains env read m) ∨ result.writes = [.outLine refuted]) ∧
    ∀ (p : Profile) (words : List Word) (t : Text), t ≠ [] → t <+: unlines (p.trace words) →
      ¬ t <+: result.outcome.stderr := by
  obtain ⟨chunks, ho, -⟩ | ⟨p, line, ho, -⟩ | ⟨m, ho, hm⟩ | ⟨ho, -⟩ := result_cases env read r
  · rw [hresult, ho] at hcode; exact absurd rfl hcode
  · rw [hresult, ho] at hcode; exact absurd rfl hcode
  · rw [hresult, ho, outcome_err]
    exact ⟨.inl ⟨m, rfl, hm⟩, fun p words t ht htrace => hm.noTrace.not_isPrefix p words ht htrace⟩
  · rw [hresult, ho]
    exact ⟨.inr rfl, fun p words t ht _ hp => ht (List.prefix_nil.1 hp)⟩

end

/-- **A run ends in exactly one of three ways**: with code 0 and no message but the trace of a decryption that was asked for
one and succeeded, all its lines ended; with code 1, a message and no output; or with code 1, the line that refutes a
text and no message, and this exactly for a text to verify that does not encrypt to the chain of a profile which was
found.  A run that does not end with code 0 writes once, one whole message or that line, so it leaves no part of an output
and no part of a trace; and where a fault stops a run, it has written nothing before, however profiles are loaded. -/
theorem run_ends_in_one_way (argv : List String) (env : String → Option String)
    (read : String → Except FileFault (List UInt8)) :
    let request := Request.ofArguments argv
    let outcome := run argv env read
    (∃! e : Ending, e.Describes env read request outcome) ∧
    (Ending.refuted.Describes env read request outcome ↔ request.Mismatches env read) ∧
    (outcome.code ≠ 0 →
      ((∃ m, (transcript argv env read).writes = [.err m] ∧ request.Complains env read m) ∨
        (transcript argv env read).writes = [.outLine refuted]) ∧
      ∀ (p : Profile) (words : List Word) (t : Text), t ≠ [] → t <+: unlines (p.trace words) →
        ¬ t <+: outcome.stderr) ∧
    ∀ (load : Option String → Except Fault Profile) (f : Fault) (writes : List Write),
      (request.act load).run.run [] = (.error (.fault f), writes) → writes = [] := by
  intro request outcome
  have houtcome : outcome = (request.result fun profile => (Location.resolve profile env).load read).outcome :=
    run_eq argv env read
  obtain ⟨e, he⟩ := exists_describes env read request
  rw [← houtcome] at he
  refine ⟨⟨e, he, fun _ he' => he'.unique he⟩, ?_, nothing_partial env read (transcript_eq argv env read), ?_⟩
  · rw [houtcome]
    exact describes_refuted_iff env read request
  · intro load f writes hstop
    exact request.early_act load [] f writes hstop

/-- A text that the bundled profile does not hold, a decryption with a trace whose profile is missing, and one whose
profile was never checked: its rounds are too many, and the run stops before the trace. -/
theorem run_ends_in_one_way_refuting :
    let env : String → Option String := fun _ => none
    let read : String → Except FileFault (List UInt8) := fun _ => .error .missing
    let unchecked : Profile := { Profile.reference with rounds := 0x20000000000000 }
    (run ["verify", "WRONG"] env read).stdout = "THAT IS NOT CORRECT. TRY AGAIN :D\n" ∧
      (run ["decrypt", "--trace", "--profile", "gone"] env read).code ≠ 0 ∧
      ¬ "-" <+: (run ["decrypt", "--trace", "--profile", "gone"] env read).stderr ∧
      ∃ f writes, ((Request.ofArguments ["decrypt", "--trace"]).act fun _ => .ok unchecked).run.run [] =
        (.error (.fault f), writes) ∧ writes = [] := by
  intro env read unchecked
  have hmismatch : (Request.ofArguments ["verify", "WRONG"]).Mismatches env read :=
    ⟨none, "WRONG", Profile.reference, rfl, .bundled (.inl rfl) nofun, by decide +kernel⟩
  have hrefuted := (run_ends_in_one_way ["verify", "WRONG"] env read).2.1.2 hmismatch
  have hcode : (run ["decrypt", "--trace", "--profile", "gone"] env read).code ≠ 0 := by decide +kernel
  have htrace : ("-" : Text) <+: unlines (Profile.reference.trace []) := ⟨_, rfl⟩
  have hrefused : (unchecked.decryptSteps false).toOption = none := by decide +kernel
  obtain ⟨f, hf⟩ : ∃ f, unchecked.decryptSteps false = .error f := by
    cases hsteps : unchecked.decryptSteps false with
    | error f => exact ⟨f, rfl⟩
    | ok result => rw [hsteps] at hrefused; cases hrefused
  have hstop : ((Request.ofArguments ["decrypt", "--trace"]).act fun _ => .ok unchecked).run.run [] =
      (.error (.fault f), []) := (Act.run_check_ok rfl _ []).trans (Act.run_check_error hf _ [])
  exact ⟨hrefuted.2.1.trans (by decide +kernel), hcode,
    ((run_ends_in_one_way _ env read).2.2.1 hcode).2 Profile.reference [] "-" (by decide) htrace,
    f, [], hstop, (run_ends_in_one_way _ env read).2.2.2 _ f [] hstop⟩

end Command
end GlyphChain
