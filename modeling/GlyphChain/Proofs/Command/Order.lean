import GlyphChain.Proofs.Command.Transcript
import Mathlib.Logic.ExistsUnique
/-!
# Order — operands and flags in any order

What follows the word of an action is a list of items: operands, profiles in one word or in two, and the switches of the
action.  Their words are sorted out twice, first with no flag known, so that everything from the first flag on is left
over, and then the left over by the flags of the action.  For any words at all this comes to the same as sorting them out
at once (`sorted_eq_split`), where each item counts for what it is wherever it stands (`split_item`).  So a run depends
only on the first operand, the last profile and which switches there are.
-/
namespace GlyphChain

namespace Command

/-! ## Words that are no flags -/

/-- A word of at most one character, or without a hyphen before the others. -/
def Plain (a : String) : Prop := a.length ≤ 1 ∨ a.toList.head? ≠ some '-'

instance (a : String) : Decidable (Plain a) := inferInstanceAs (Decidable (_ ∨ _))

theorem isFlag_of_plain {a : String} (h : Plain a) : isFlag a = false := by
  unfold isFlag
  split
  · next c cs hcs =>
    rcases h with hlen | hhead
    · rw [← String.length_toList, hcs] at hlen
      simp at hlen
    · rw [hcs] at hhead
      exact absurd rfl hhead
  · rfl

theorem plain_of_isFlag {a : String} (h : isFlag a = false) : Plain a := by
  unfold Plain
  rw [← String.length_toList]
  unfold isFlag at h
  split at h
  · cases h
  · next hcs =>
    match hlist : a.toList with
    | [] => exact .inl (Nat.zero_le 1)
    | [_] => exact .inl (Nat.le_refl 1)
    | c :: d :: rest =>
      refine .inr (fun hc => ?_)
      rw [List.head?_cons, Option.some.injEq] at hc
      exact hcs d rest (hc ▸ hlist)

theorem Plain.ne {a b : String} (h : Plain a) (hb : isFlag b = true) : a ≠ b := by
  rintro rfl
  rw [isFlag_of_plain h] at hb
  cases hb

theorem isFlag_word (f : Flag) : isFlag f.word = true := by
  cases f <;> decide

theorem isFlag_attached (path : String) : isFlag ("--profile=" ++ path) = true := by
  unfold isFlag
  rw [String.toList_append]
  rfl

theorem toList_profileFlag : (Flag.word .profile ++ "=").toList = "--profile=".toList := by decide

theorem attachedProfile?_eq_some {known : List Flag} {a path : String} (h : attachedProfile? known a = some path) :
    a = "--profile=" ++ path := by
  unfold attachedProfile? at h
  split at h
  · obtain ⟨cs, hcs, rfl⟩ := Option.map_eq_some_iff.1 h
    rw [List.isPrefixOf?_eq_some_iff_append_eq, toList_profileFlag] at hcs
    rw [← String.toList_inj, ← hcs, String.toList_append]
    exact congrArg ("--profile=".toList ++ ·) String.toList_ofList.symm
  · cases h

theorem attachedProfile?_attached {known : List Flag} (hknown : Flag.profile ∈ known) (path : String) :
    attachedProfile? known ("--profile=" ++ path) = some path := by
  have hcs : (Flag.word .profile ++ "=").toList.isPrefixOf? ("--profile=" ++ path).toList = some path.toList := by
    rw [List.isPrefixOf?_eq_some_iff_append_eq, toList_profileFlag, String.toList_append]
  rw [attachedProfile?, if_pos (List.contains_iff_mem.2 hknown), hcs, Option.map_some, String.ofList_toList]

theorem attached_ne (path : String) : "--profile=" ++ path ≠ "--" ∧ ∀ f : Flag, f.word ≠ "--profile=" ++ path := by
  have htake : ("--profile=" ++ path).toList.take 10 = "--profile=".toList := by
    rw [String.toList_append, List.take_left' (by decide)]
  have hne : ∀ a : String, a.toList.take 10 ≠ "--profile=".toList → a ≠ "--profile=" ++ path := by
    rintro a ha rfl
    exact ha htake
  refine ⟨(hne "--" (by decide)).symm, fun f => hne f.word ?_⟩
  cases f <;> decide

/-! ## One word sorted out -/

section
variable {known : List Flag} {leftOver : Bool} {a : String} {rest : List String}

theorem split_end : split known false ("--" :: rest) = { Split.empty with operands := rest } := by
  rw [split.eq_def]
  rfl

theorem split_other (hend : a ≠ "--") (hfind : known.find? (·.word == a) = none)
    (hattached : attachedProfile? known a = none) :
    split known leftOver (a :: rest) = (split known (leftOver || isFlag a) rest).addWord (leftOver || isFlag a) a := by
  rw [split.eq_def known leftOver (a :: rest)]
  simp only [beq_eq_false_iff_ne.2 hend, Bool.false_eq_true, if_false, hfind, hattached]

theorem split_plain (h : Plain a) :
    split known leftOver (a :: rest) = (split known leftOver rest).addWord leftOver a := by
  have hfind : known.find? (·.word == a) = none :=
    List.find?_eq_none.2 (fun f _ hf => h.ne (isFlag_word f) (beq_iff_eq.1 hf).symm)
  have hattached : attachedProfile? known a = none :=
    Option.eq_none_iff_forall_ne_some.2 (fun path hp => h.ne (isFlag_attached path) (attachedProfile?_eq_some hp))
  rw [split_other (h.ne (by decide)) hfind hattached, isFlag_of_plain h, Bool.or_false]

/-- **With no flag known, all after an unknown one is left over.** -/
theorem split_leftOver : ∀ ws : List String, split [] true ws = { Split.empty with unknown := ws }
  | [] => rfl
  | a :: rest => by
    by_cases hend : a = "--"
    · rw [split.eq_def, hend]
      rfl
    · rw [split_other hend rfl rfl, Bool.true_or, split_leftOver rest]
      rfl

theorem split_unknown (hflag : isFlag a = true) (hend : a ≠ "--") :
    split [] false (a :: rest) = { Split.empty with unknown := a :: rest } := by
  rw [split_other hend rfl rfl, Bool.false_or, hflag, split_leftOver]
  rfl

end

/-! ## Items -/

/-- What can follow the word of an action; the switches only if the action knows them. -/
inductive Item (action : Action)
  | operand (text : String) (plain : Plain text)
  | profile (path : String)
  | attached (path : String)
  | lowerCase (known : Flag.lowerCase ∈ action.flags)
  | trace (known : Flag.trace ∈ action.flags)

namespace Item

variable {action : Action}

def words : Item action → List String
  | .operand text _ => [text]
  | .profile path => ["--profile", path]
  | .attached path => ["--profile=" ++ path]
  | .lowerCase _ => ["--lower-case"]
  | .trace _ => ["--trace"]

def operand? : Item action → Option String
  | .operand text _ => some text
  | _ => none

def path? : Item action → Option String
  | .profile path | .attached path => some path
  | _ => none

def isLowerCase : Item action → Bool
  | .lowerCase _ => true
  | _ => false

def isTrace : Item action → Bool
  | .trace _ => true
  | _ => false

/-- What an item adds to the words after it, sorted out. -/
def onto (s : Split) : Item action → Split
  | .operand text _ => { s with operands := text :: s.operands }
  | .profile path | .attached path => s.addProfile path
  | .lowerCase _ => { s with lowerCase := true }
  | .trace _ => { s with trace := true }

end Item

variable {action : Action}

theorem find?_word {f : Flag} (h : f ∈ action.flags) : action.flags.find? (·.word == f.word) = some f := by
  revert f
  cases action <;> decide

/-- **An item counts for what it is**, whatever follows it. -/
theorem split_item (i : Item action) (rest : List String) :
    split action.flags false (i.words ++ rest) = i.onto (split action.flags false rest) := by
  have hprofile : Flag.profile ∈ action.flags := by cases action <;> decide
  cases i with
  | operand text plain => exact split_plain plain
  | profile path =>
    have hfind : action.flags.find? (·.word == "--profile") = some .profile := find?_word hprofile
    rw [Item.words, List.cons_append, split.eq_def]
    simp only [hfind]
    rfl
  | attached path =>
    obtain ⟨hend, hword⟩ := attached_ne path
    have hfind : action.flags.find? (·.word == "--profile=" ++ path) = none :=
      List.find?_eq_none.2 (fun f _ hf => hword f (beq_iff_eq.1 hf))
    rw [Item.words, List.cons_append, split.eq_def]
    simp only [beq_eq_false_iff_ne.2 hend, hfind, attachedProfile?_attached hprofile]
    rfl
  | lowerCase known =>
    have hfind : action.flags.find? (·.word == "--lower-case") = some .lowerCase := find?_word known
    rw [Item.words, List.cons_append, split.eq_def]
    simp only [hfind]
    rfl
  | trace known =>
    have hfind : action.flags.find? (·.word == "--trace") = some .trace := find?_word known
    rw [Item.words, List.cons_append, split.eq_def]
    simp only [hfind]
    rfl

def firstOperand (items : List (Item action)) : Option String := (items.filterMap Item.operand?).head?

def lastPath (items : List (Item action)) : Option String := (items.filterMap Item.path?).getLast?

/-- Items sorted out: all operands, the last profile, which switches there are, and nothing left over. -/
def gather (items : List (Item action)) : Split :=
  ⟨items.filterMap Item.operand?, [], lastPath items, items.any Item.isLowerCase, items.any Item.isTrace, false⟩

theorem getLast?_cons_or (path : String) (paths : List String) :
    (path :: paths).getLast? = paths.getLast?.or (some path) := by
  rw [List.getLast?_cons]
  cases paths.getLast? <;> rfl

theorem gather_cons (i : Item action) (items : List (Item action)) : gather (i :: items) = i.onto (gather items) := by
  cases i with
  | operand text plain => rfl
  | profile path => exact congrArg (fun last => { gather items with profile := last }) (getLast?_cons_or path _)
  | attached path => exact congrArg (fun last => { gather items with profile := last }) (getLast?_cons_or path _)
  | lowerCase known => rfl
  | trace known => rfl

/-- **Items sorted out at once leave nothing over.** -/
theorem split_items : ∀ items : List (Item action), split action.flags false (items.flatMap Item.words) = gather items
  | [] => rfl
  | i :: items => by rw [List.flatMap_cons, split_item, split_items items, gather_cons]

/-! ## The words after an action's -/

/-- The words after an action's: what is left over with no flag known is sorted out by the flags of the action. -/
def sorted (action : Action) (ws : List String) : Split :=
  let top := split [] false ws
  let s := split action.flags false top.unknown
  { s with operands := top.operands ++ s.operands }

theorem sorted_plain {a : String} (h : Plain a) (ws : List String) :
    sorted action (a :: ws) = { sorted action ws with operands := a :: (sorted action ws).operands } := by
  unfold sorted
  rw [split_plain h]
  rfl

theorem sorted_unknown {a : String} (hflag : isFlag a = true) (hend : a ≠ "--") (ws : List String) :
    sorted action (a :: ws) = split action.flags false (a :: ws) := by
  unfold sorted
  rw [split_unknown hflag hend]
  rfl

/-- **Words sorted out in two goes come to the same as at once.** -/
theorem sorted_eq_split : ∀ ws : List String, sorted action ws = split action.flags false ws
  | [] => rfl
  | a :: ws => by
    -- an operand before the first flag is taken in the first go; from the first flag on all is left to the second
    by_cases hend : a = "--"
    · unfold sorted
      rw [hend, split_end, split_end]
      show Split.mk (ws ++ []) [] none false false false = _
      rw [List.append_nil]
      rfl
    · cases hflag : isFlag a with
      | true => exact sorted_unknown hflag hend ws
      | false =>
        have hplain := plain_of_isFlag hflag
        rw [sorted_plain hplain, sorted_eq_split ws, split_plain hplain]
        rfl

theorem plain_name (action : Action) : Plain action.name := by cases action <;> decide

theorem ofName?_name (action : Action) : Action.ofName? action.name = some action := by cases action <;> decide

/-- **What a command line asks for that names an action** depends on its other words as they are sorted out. -/
theorem ofArguments_name (action : Action) (ws : List String) : Request.ofArguments (action.name :: ws) =
    if (sorted action ws).incomplete then .bad .missingProfile
    else if (sorted action ws).unknown.any isHelp then .help (some action)
    else match (sorted action ws).unknown with
      | flag :: _ => .bad (.unknownFlag action flag)
      | [] => .ofSplit action (sorted action ws) (sorted action ws).operands := by
  have htop : split [] false (action.name :: ws) = (split [] false ws).addWord false action.name :=
    split_plain (plain_name action)
  unfold Request.ofArguments
  simp only [htop, Split.addWord, Bool.false_eq_true, if_false, ofName?_name]
  rfl

/-! ## Runs -/

/-- The task of an action with a text and its switches; to decrypt takes no text. -/
def Action.task? : Action → Option String → Bool → Bool → Option Task
  | .decrypt, _, lowerCase, trace => some (.decrypt lowerCase trace)
  | .encrypt, text, _, _ => text.map .encrypt
  | .verify, text, _, _ => text.map .verify

/-- What an action writes with a text, its switches and what is found for its profile. -/
def Action.answer (action : Action) (text : Option String) (lowerCase trace : Bool) (found : Except Fault Profile) :
    Transcript :=
  match action.task? text lowerCase trace, found with
  | none, _ => .failed UsageFault.missingText.message
  | some task, .ok p => task.result p
  | some _, .error fault => .failed fault.message

theorem result_ofSplit (load : Option String → Except Fault Profile) (action : Action) (s : Split)
    (operands : List String) : (Request.ofSplit action s operands).result load =
      action.answer operands.head? s.lowerCase s.trace (load s.profile) := by
  cases hload : load s.profile <;> cases action <;> cases operands <;>
    simp [Request.ofSplit, Request.result, Action.answer, Action.task?, hload]

theorem transcript_items (items : List (Item action)) (env : String → Option String)
    (read : String → Except FileFault (List UInt8)) : transcript (action.name :: items.flatMap Item.words) env read =
      action.answer (firstOperand items) (items.any Item.isLowerCase) (items.any Item.isTrace)
        ((Location.resolve (lastPath items) env).load read) := by
  have hrequest : Request.ofArguments (action.name :: items.flatMap Item.words) =
      .ofSplit action (gather items) (gather items).operands := by
    rw [ofArguments_name, sorted_eq_split, split_items]
    rfl
  rw [transcript_eq, hrequest, result_ofSplit]
  rfl

theorem Action.answer_congr {text text' : Option String} (h : action ≠ .decrypt → text = text') (lowerCase trace : Bool)
    (found : Except Fault Profile) :
    action.answer text lowerCase trace found = action.answer text' lowerCase trace found := by
  by_cases hdecrypt : action = .decrypt
  · rw [hdecrypt]
    rfl
  · rw [h hdecrypt]

/-- **The order of operands and flags does not matter.**  After the word of an action let there be any items, each an
operand, a profile in one word or in two with any path at all, or a switch that the action knows.  The run then depends,
the environment and the files aside, only on the first operand (to decrypt, not even on that), on the path of the last
profile and on which switches there are.  There is exactly one thing to find for that path, and the run works on it: the
bytes of the file at the path if it is not empty, else of the file that the environment names between blanks, read as a
profile, or the fault of a file that has no bytes; and the bundled profile if neither names a file. -/
theorem run_ignores_order (action : Action) (env : String → Option String)
    (read : String → Except FileFault (List UInt8)) :
    (∀ items : List (Item action), (∃! found, Profile.Found (lastPath items) env read found) ∧
      ∀ found, Profile.Found (lastPath items) env read found →
        run (action.name :: items.flatMap Item.words) env read =
          (action.answer (firstOperand items) (items.any Item.isLowerCase) (items.any Item.isTrace) found).outcome) ∧
    ∀ items items' : List (Item action), (action ≠ .decrypt → firstOperand items = firstOperand items') →
      lastPath items = lastPath items' → items.any Item.isLowerCase = items'.any Item.isLowerCase →
      items.any Item.isTrace = items'.any Item.isTrace →
      run (action.name :: items.flatMap Item.words) env read =
        run (action.name :: items'.flatMap Item.words) env read := by
  refine ⟨fun items => ⟨⟨_, Location.found_resolve _ env read, fun _ => Location.eq_of_found⟩, ?_⟩, ?_⟩
  · intro found hfound
    rw [run, transcript_items, Location.eq_of_found hfound]
  · intro items items' hoperand hpath hlower htrace
    rw [run, run, transcript_items, transcript_items, hpath, hlower, htrace, Action.answer_congr hoperand]

/-- Profiles named `--` and `help` that a later empty one takes back, so that the file is read which the environment names
between blanks; and a text before and after a profile with an equals sign in its path, whose file is read instead. -/
theorem run_ignores_order_shuffled :
    let bytes := "\x7b\"key\":[1,2,3,4],\"chain\":[4328521728],\"glyphs\":[\" \",\"N\",\"o\"]\x7d".toList.map Char.toUInt8
    let p : Profile := ⟨⟨1, 2, 3, 4⟩, [4328521728], 32, 0x9e38538a49, [" ", "N", "o"]⟩
    let env : String → Option String := fun _ => some "\t named\u00a0"
    let read : String → Except FileFault (List UInt8) := fun path =>
      if path = "named" ∨ path = "x=y" then .ok bytes else .error .missing
    (∀ source, Profile.ofBytes source bytes = .ok p) ∧
      run ["decrypt", "--lower-case", "--profile", "--", "-", "--profile=help", "--profile=", "--trace"] env read =
        run ["decrypt", "--trace", "--profile", "", "--lower-case"] env read ∧
      run ["decrypt", "--profile="] env read = ⟨0, "No\n", ""⟩ ∧
      run ["verify", "No", "--profile=--profile", "", "--profile", "x=y"] env read =
        run ["verify", "--profile=x=y", "No", "-"] env read ∧
      run ["verify", "--profile=x=y", "No", "-"] env read = ⟨0, unlines [verified], ""⟩ := by
  intro bytes p env read
  obtain ⟨hdecrypted, hdecrypt⟩ := run_ignores_order .decrypt env read
  obtain ⟨hverified, hverify⟩ := run_ignores_order .verify env read
  have hlower : Flag.lowerCase ∈ Action.decrypt.flags := by decide
  have htrace : Flag.trace ∈ Action.decrypt.flags := by decide
  have hp : ∀ source, Profile.ofBytes source bytes = .ok p :=
    Profile.ofBytes_source (by decide +kernel : (Profile.ofBytes "" bytes).toOption = some p)
  have htrimmed : Text.Trimmed Text.blankChar "\t named\u00a0".toList "named".toList :=
    Text.trimmed_iff.2 (by decide +kernel)
  have hnamed : Profile.Found (some "") env read (.ok p) := by
    rw [← hp "named"]
    exact .environment (.inr rfl) rfl htrimmed (by decide) (.bytes rfl)
  have hgiven : Profile.Found (some "x=y") env read (.ok p) := by
    rw [← hp "x=y"]
    exact .option rfl (by decide) (.bytes rfl)
  refine ⟨hp, ?_, ((hdecrypted [.attached ""]).2 _ hnamed).trans (by decide +kernel), ?_, ?_⟩
  · exact hdecrypt
      [.lowerCase hlower, .profile "--", .operand "-" (by decide), .attached "help", .attached "", .trace htrace]
      [.trace htrace, .profile "", .lowerCase hlower] (fun h => absurd rfl h) rfl rfl rfl
  · exact hverify [.operand "No" (by decide), .attached "--profile", .operand "" (by decide), .profile "x=y"]
      [.attached "x=y", .operand "No" (by decide), .operand "-" (by decide)] (fun _ => rfl) rfl rfl rfl
  · exact ((hverified [.attached "x=y", .operand "No" (by decide), .operand "-" (by decide)]).2 _ hgiven).trans
      (by decide +kernel)

end Command
end GlyphChain
