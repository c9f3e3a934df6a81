import GlyphChain.Text.Units
/-!
# Document — trees of plain data

What a profile is written in: nothing, truth values, numbers, texts, lists, and records of named fields.  The type of
the numbers is a parameter, because a file spells them out while a program holds them.  A record keeps its fields in
the order they were given; where a name occurs twice, the later field is the one that counts.
-/
namespace GlyphChain

/-- A document with numbers of type `ν`. -/
inductive Doc (ν : Type) where
  | null
  | bool (b : Bool)
  | number (n : ν)
  | text (s : Text)
  | list (items : List (Doc ν))
  | record (fields : List (Text × Doc ν))

namespace Doc

variable {ν μ : Type}

/-- The field of that name that counts. -/
def field? (fields : List (Text × Doc ν)) (name : String) : Option (Doc ν) :=
  (fields.reverse.find? (fun f => f.1 == Text.ofString name)).map Prod.snd

mutual
/-- The same document with every number taken through `f`. -/
def map (f : ν → μ) : Doc ν → Doc μ
  | .null => .null
  | .bool b => .bool b
  | .number n => .number (f n)
  | .text s => .text s
  | .list items => .list (mapItems f items)
  | .record fields => .record (mapFields f fields)
def mapItems (f : ν → μ) : List (Doc ν) → List (Doc μ)
  | [] => []
  | d :: ds => map f d :: mapItems f ds
def mapFields (f : ν → μ) : List (Text × Doc ν) → List (Text × Doc μ)
  | [] => []
  | (name, d) :: fs => (name, map f d) :: mapFields f fs
end

end Doc
end GlyphChain
