import GlyphChain.Command.Run
import GlyphChain.Proofs.Profile.Loaded
import GlyphChain.Proofs.Profile.Located
/-!
# Transcript — what a run has written when it stops

Each part of a run either makes a check or writes.  The checks of a request come before its writes, so a run that stops
at a fault has written nothing yet, whatever the profile it works on is like (`Request.early_act`).  A profile that
loads passed the checks of a profile, so after loading no check fails: the task comes to its end, and the run writes
what `Request.result` says, in that order (`transcript_eq`).
-/
namespace GlyphChain
namespace Command

/-! ## Parts of a run -/

namespace Act

variable {α β : Type}

theorem run_write (w : Write) (ws : List Write) : (write w).run.run ws = (.ok (), ws ++ [w]) := rfl

theorem run_bind_ok {x : Act α} {ws ws' : List Write} {a : α} (h : x.run.run ws = (.ok a, ws')) (f : α → Act β) :
    (x >>= f).run.run ws = (f a).run.run ws' := by
  show ((x.run >>= ExceptT.bindCont f : StateM (List Write) _)).run ws = _
  rw [StateT.run_bind, h]
  rfl

theorem run_bind_error {x : Act α} {ws ws' : List Write} {e : Stop} (h : x.run.run ws = (.error e, ws'))
    (f : α → Act β) : (x >>= f).run.run ws = (.error e, ws') := by
  show ((x.run >>= ExceptT.bindCont f : StateM (List Write) _)).run ws = _
  rw [StateT.run_bind, h]
  rfl

theorem run_check_ok {e : Except Fault α} {a : α} (h : e = .ok a) (f : α → Act β) (ws : List Write) :
    (check e >>= f).run.run ws = (f a).run.run ws := by
  rw [h]
  exact run_bind_ok rfl f

theorem run_check_error {e : Except Fault α} {fault : Fault} (h : e = .error fault) (f : α → Act β) (ws : List Write) :
    (check e >>= f).run.run ws = (.error (.fault fault), ws) := by
  rw [h]
  exact run_bind_error rfl f

theorem run_then (w : Write) (x : Act β) (ws : List Write) :
    (write w >>= fun _ => x).run.run ws = x.run.run (ws ++ [w]) :=
  run_bind_ok (run_write w ws) _

/-- **A loop of writes writes each in turn.** -/
theorem run_forM (f : α → Write) : ∀ (xs : List α) (ws : List Write),
    (xs.forM fun x => write (f x)).run.run ws = (.ok (), ws ++ xs.map f)
  | [], ws => by
    rw [List.map_nil, List.append_nil]
    rfl
  | x :: xs, ws => by
    refine (run_then (f x) _ ws).trans ?_
    rw [run_forM f xs, List.map_cons, List.append_assoc]
    rfl

/-! ## Where a fault can stop a run -/

/-- A part of a run that no fault stops. -/
def Sure (x : Act α) : Prop := ∀ ws f ws', x.run.run ws ≠ (.error (.fault f), ws')

/-- A part of a run that a fault stops only before it has written anything. -/
def Early (x : Act α) : Prop := ∀ ws f ws', x.run.run ws = (.error (.fault f), ws') → ws' = ws

theorem Sure.early {x : Act α} (h : Sure x) : Early x := fun ws f ws' hx => absurd hx (h ws f ws')

theorem sure_pure (a : α) : Sure (pure a : Act α) := nofun

theorem sure_exit (code : Nat) : Sure (exit code : Act α) := nofun

theorem sure_write_bind (w : Write) {x : Act α} (hx : Sure x) : Sure (write w >>= fun _ => x) := by
  intro ws f ws'
  rw [run_then]
  exact hx _ f ws'

theorem sure_forM_bind (f : α → Write) (xs : List α) {x : Act β} (hx : Sure x) :
    Sure ((xs.forM fun x => write (f x)) >>= fun _ => x) := by
  intro ws fault ws'
  rw [run_bind_ok (run_forM f xs ws)]
  exact hx _ fault ws'

/-- **A check before a part that is stopped early, if at all, leaves it so.** -/
theorem early_check_bind (e : Except Fault α) {f : α → Act β} (hf : ∀ a, Early (f a)) : Early (check e >>= f) := by
  intro ws fault ws' h
  cases e with
  | ok a =>
    rw [run_check_ok rfl] at h
    exact hf a ws fault ws' h
  | error fault' =>
    rw [run_check_error rfl] at h
    cases h
    rfl

end Act

theorem Task.early_act (p : Profile) (task : Task) : Act.Early (task.act p) := by
  cases task with
  | decrypt lowerCase trace =>
    refine Act.early_check_bind _ (fun _ => Act.Sure.early ?_)
    cases trace with
    | true => exact Act.sure_forM_bind _ _ (Act.sure_write_bind _ (Act.sure_pure 0))
    | false => exact Act.sure_write_bind _ (Act.sure_pure 0)
  | encrypt text => exact Act.early_check_bind _ (fun _ => (Act.sure_forM_bind _ _ (Act.sure_pure 0)).early)
  | verify text =>
    refine Act.early_check_bind _ (fun verified => Act.Sure.early ?_)
    cases verified with
    | true => exact Act.sure_write_bind _ (Act.sure_pure 0)
    | false => exact Act.sure_write_bind _ (Act.sure_pure 1)

/-- **A request that a fault stops has written nothing before it**, however profiles are loaded. -/
theorem Request.early_act (load : Option String → Except Fault Profile) (r : Request) : Act.Early (r.act load) := by
  cases r with
  | help topic => exact (Act.sure_write_bind _ (Act.sure_exit 0)).early
  | strayHelp => exact (Act.sure_write_bind _ (Act.sure_exit 1)).early
  | bad fault => exact (Act.sure_write_bind _ (Act.sure_exit 1)).early
  | run profile task => exact Act.early_check_bind _ (fun p => task.early_act p)

/-! ## What a run comes to -/

/-- The lines of a trace, each a write to the messages. -/
def traceWrites (lines : List String) : List Write := lines.map fun l => .errLine (Text.ofString l)

/-- What a task writes on a profile whose checks all pass. -/
def Task.result (p : Profile) : Task → Transcript
  | .decrypt lowerCase trace =>
    ⟨(if trace then traceWrites (p.trace p.decrypted) else []) ++ [.out (p.line lowerCase)], 0⟩
  | .encrypt text => ⟨(p.encrypt text).map fun w => .outLine w.hex, 0⟩
  | .verify text =>
    if p.encrypt text = p.chain.map (Word.low Word.blockBits) then ⟨[.outLine verified], 0⟩
    else ⟨[.outLine refuted], 1⟩

/-- What a run writes that fails with a message. -/
def Transcript.failed (message : Text) : Transcript := ⟨[.errLine message], 1⟩

/-- What a request writes, where `load` gives the profile of a flag's value. -/
def Request.result (load : Option String → Except Fault Profile) : Request → Transcript
  | .help topic => ⟨[.out ((topic.map Action.help).getD programHelp)], 0⟩
  | .strayHelp => ⟨[.err programHelp], 1⟩
  | .bad fault => .failed fault.message
  | .run profile task =>
    match load profile with
    | .ok p => task.result p
    | .error fault => .failed fault.message

/-- **A task on a checked profile comes to its end**, with each write on top of the ones before. -/
theorem Task.run_act {p : Profile} (h : p.Accepted) (task : Task) (ws : List Write) :
    (task.act p).run.run ws = (.ok (task.result p).code, ws ++ (task.result p).writes) := by
  cases task with
  | decrypt lowerCase trace =>
    rw [Task.act, Act.run_check_ok (h.decryptSteps_eq lowerCase)]
    cases trace with
    | true =>
      have hloop := Act.run_forM (fun l => Write.errLine (Text.ofString l)) (p.trace p.decrypted) ws
      refine (Act.run_bind_ok hloop _).trans ((Act.run_then _ _ _).trans ?_)
      rw [List.append_assoc]
      rfl
    | false => exact Act.run_then _ _ _
  | encrypt text =>
    rw [Task.act, Act.run_check_ok (h.encryptSteps_eq text)]
    exact Act.run_bind_ok (Act.run_forM (fun w : Word => Write.outLine w.hex) (p.encrypt text) ws) _
  | verify text =>
    rw [Task.act, Act.run_check_ok (h.verifySteps_eq text), Profile.verify, Task.result]
    by_cases hv : p.encrypt text = p.chain.map (Word.low Word.blockBits)
    · rw [if_pos (decide_eq_true hv), if_pos hv]
      exact Act.run_then _ _ _
    · rw [if_neg (by simpa using hv), if_neg hv]
      exact Act.run_then _ _ _

/-- **A request writes what it comes to**, if every profile that loads passed the checks of a profile. -/
theorem Request.transcript_act {load : Option String → Except Fault Profile}
    (hload : ∀ profile p, load profile = .ok p → p.Accepted) (r : Request) :
    (r.act load).transcript = r.result load := by
  cases r with
  | help topic => rfl
  | strayHelp => rfl
  | bad fault => rfl
  | run profile task =>
    unfold Act.transcript
    rw [Request.act, Request.result]
    cases h : load profile with
    | error fault => rfl
    | ok p =>
      rw [Act.run_check_ok rfl, Task.run_act (hload profile p h)]
      rfl

/-- **A command line writes what its request comes to.** -/
theorem transcript_eq (argv : List String) (env : String → Option String)
    (read : String → Except FileFault (List UInt8)) : transcript argv env read =
      (Request.ofArguments argv).result (fun profile => (Location.resolve profile env).load read) :=
  Request.transcript_act (fun _ _ => Location.accepted_of_load) _

theorem run_eq (argv : List String) (env : String → Option String) (read : String → Except FileFault (List UInt8)) :
    run argv env read =
      ((Request.ofArguments argv).result fun profile => (Location.resolve profile env).load read).outcome :=
  congrArg Transcript.outcome (transcript_eq argv env read)

/-! ## Its output and its messages -/

theorem outcome_err (m : Text) : (⟨[.err m], 1⟩ : Transcript).outcome = ⟨1, "", m⟩ :=
  congrArg (Outcome.mk 1 "") (List.append_nil m)

theorem messages_chunks (chunks : List Text) : (chunks.map Write.out).flatMap Write.message = "" := by
  rw [List.flatMap_map]
  exact List.flatMap_eq_nil_iff.2 (fun _ _ => rfl)

theorem messages_trace (lines : List String) (line : Text) :
    (traceWrites lines ++ [Write.out line]).flatMap Write.message = unlines lines := by
  rw [List.flatMap_append, traceWrites, List.flatMap_map]
  exact List.append_nil _

theorem outputs_trace (lines : List String) (line : Text) :
    (traceWrites lines ++ [Write.out line]).flatMap Write.output = line := by
  have hnone : (traceWrites lines).flatMap Write.output = [] := by
    rw [traceWrites, List.flatMap_map]
    exact List.flatMap_eq_nil_iff.2 (fun _ _ => rfl)
  rw [List.flatMap_append, hnone]
  exact List.append_nil line

end Command
end GlyphChain
