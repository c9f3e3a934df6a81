import GlyphChain.Proofs.Document.Integer
import GlyphChain.Proofs.Profile.Accepted
/-!
# WrittenOut — a profile written out as a document

Writing a profile out puts every word of it into a text, in hexadecimal with any number of places or in decimal, as its
own style says; the rounds are written as a number and the glyphs as they are, and nothing is left to a default.  Each
style spells its word (`Style.spelling`), so what is written out states the profile (`statedBy_of_writtenOut`), whatever
the document that the profile came from looked like.
-/
namespace GlyphChain

inductive Word.Style
  | hex (digits : Int)
  | decimal

namespace Word.Style

def write : Style → Word → String
  | .hex digits, x => toHex digits x
  | .decimal, x => Digits.decimalInt x

theorem spelling (style : Style) (x : Word) : Spelling x (.text (style.write x)) := by
  cases style with
  | hex digits => exact .hex digits
  | decimal => exact .decimal

end Word.Style

namespace Profile

open Word (Style Spelling)

/-- The styles of a profile's words, those of the key and of the chain by index. -/
structure Hand where
  delta : Style
  key : Nat → Style
  chain : Nat → Style

/-- A list of words, each in the style of its index. -/
def writeWords (style : Nat → Style) (ws : List Word) : List Value := ws.mapIdx fun i x => .text ((style i).write x)

/-- The fields of a profile, all of them written out. -/
def writtenOut (p : Profile) (hand : Hand) : List (Text × Value) :=
  [("key", .list (writeWords hand.key p.key.words)), ("chain", .list (writeWords hand.chain p.chain)),
   ("rounds", .number (.double (.ofInt p.rounds))), ("delta", .text (hand.delta.write p.delta)),
   ("glyphs", .list (p.glyphs.map .text))]

theorem forall₂_writeWords : ∀ (style : Nat → Style) (ws : List Word), List.Forall₂ Spelling ws (writeWords style ws)
  | _, [] => .nil
  | style, w :: ws => by
    rw [writeWords, List.mapIdx_cons]
    exact .cons ((style 0).spelling w) (forall₂_writeWords (fun i => style (i + 1)) ws)

/-- Fields before those written out do not count. -/
theorem field?_append_writtenOut (p : Profile) (hand : Hand) (before : List (Text × Value)) {name : String}
    (h : name ∈ fieldNames) :
    Doc.field? (before ++ p.writtenOut hand) name = Doc.field? (p.writtenOut hand) name := by
  have hsome : (Doc.field? (p.writtenOut hand) name).isSome = true := by
    simp only [fieldNames, List.mem_cons, List.not_mem_nil, or_false] at h
    rcases h with rfl | rfl | rfl | rfl | rfl <;> rfl
  rw [Doc.field?_append, Option.or_of_isSome hsome]

/-- **A document whose fields are those written out states the profile**, in whatever order it has them and whatever
else it has. -/
theorem statedBy_of_writtenOut {p : Profile} {hand : Hand} {fields : List (Text × Value)}
    (h : ∀ name ∈ fieldNames, Doc.field? fields name = Doc.field? (p.writtenOut hand) name) : p.StatedBy fields where
  rounds := .inl (h "rounds" (by simp [fieldNames]))
  delta := .inl ⟨_, h "delta" (by simp [fieldNames]), hand.delta.spelling p.delta⟩
  key := ⟨_, h "key" (by simp [fieldNames]), forall₂_writeWords hand.key p.key.words⟩
  chain := ⟨_, h "chain" (by simp [fieldNames]), forall₂_writeWords hand.chain p.chain⟩
  glyphs := .inl (h "glyphs" (by simp [fieldNames]))

/-- **Writing a profile out and reading it again changes nothing**: for a profile that was read, from any document, and
any choice of styles for its words, every document whose five fields are those written out is read, under any name of
the source, and as that profile. -/
theorem written_out_reads_back {p : Profile} {source : String} {v : Value} (hp : ofValue source v = .ok p) (hand : Hand)
    {fields : List (Text × Value)}
    (hfields : ∀ name ∈ fieldNames, Doc.field? fields name = Doc.field? (p.writtenOut hand) name) (source' : String) :
    ofValue source' (.record fields) = .ok p := by
  have hstated := statedBy_of_writtenOut hfields
  exact ofValue_of_statedBy hstated (accepted_of_ofValue hp) source'

/-- A key of a double, an exact integer and texts of two kinds, with words of 64 bits and defaults; written out in all
styles, behind a chain that does not count and a field that no profile has. -/
theorem written_out_reads_back_mixed :
    let p : Profile := ⟨⟨0xffffffffffffffff, 7, 0x10000000000, 12⟩, [0x123456789abcdef0, 5], 32, 0xffff, ["é"]⟩
    let doc : Value := .record
      [("rounds", .null), ("delta", .text " 0XFF_ff\n"), ("chain", .list [.text "0x123456789ABCDEF0", .text "5"]),
       ("key", .list [.text "18446744073709551615", .number (.double (.ofInt 7)), .number (.exact 0x10000000000),
         .text "012"]), ("glyphs", .list [.text "é"])]
    let hand : Hand := ⟨.decimal, fun i => if i = 1 then .decimal else .hex 0, fun i => .hex (20 - 30 * i)⟩
    ofValue "first" doc = .ok p ∧
      hand.delta.write p.delta = "65535" ∧ (hand.chain 0).write 0x123456789abcdef0 = "0x0000123456789abcdef0" ∧
      ofValue "again" (.record (("chain", .null) :: ("note", .bool true) :: p.writtenOut hand)) = .ok p := by
  intro p doc hand
  have haccepts : ∀ {v : Value} {x : Word}, Word.read "" v = .ok x → Word.Accepts v x := Word.read_eq_ok_iff.1
  have hseven : Word.Accepts (.number (.double (.ofInt 7))) 7 := (Spelling.double (by decide)).accepts (by decide)
  have hp : ofValue "first" doc = .ok p := by
    refine ofValue_eq_ok_iff.2 ⟨_, rfl, .inl ⟨.inr rfl, rfl⟩, .inr ⟨_, rfl, haccepts rfl⟩, ⟨_, rfl, ?_⟩,
      ⟨_, rfl, ?_, by decide⟩, .inr ⟨rfl, by decide, by decide, by decide⟩⟩
    · exact .cons (haccepts rfl) (.cons hseven (.cons (haccepts rfl) (.cons (haccepts rfl) .nil)))
    · exact .cons (haccepts rfl) (.cons (haccepts rfl) .nil)
  refine ⟨hp, by decide +kernel, by decide +kernel, written_out_reads_back hp hand (fun name hname => ?_) "again"⟩
  exact field?_append_writtenOut p hand [("chain", .null), ("note", .bool true)] hname

end Profile
end GlyphChain
