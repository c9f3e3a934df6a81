import GlyphChain.Document.Basic
import GlyphChain.Document.Token
/-!
# Reader — documents from text

A written document is read token by token against a stack of the lists and records that are still open.  `Awaiting`
says what may come next; every token either moves the reader on or ends the reading.  Nothing may follow the document.
-/
namespace GlyphChain
namespace Doc

/-- A list or record that is still open.  Items and fields are kept latest first; `named` has the name of the field
whose value comes next. -/
inductive Frame
  | list (items : List (Doc Literal))
  | record (fields : List (Text × Doc Literal))
  | named (fields : List (Text × Doc Literal)) (name : Text)

inductive Awaiting
  | value
  | itemOrClose
  | nameOrClose
  | name
  | colon (name : Text)
  | commaOrClose
  | nothing (doc : Doc Literal)

abbrev ReaderState := List Frame × Awaiting

/-- A complete value takes its place in the innermost open frame. -/
def place? (stack : List Frame) (d : Doc Literal) : Option ReaderState :=
  match stack with
  | [] => some ([], .nothing d)
  | .list items :: rest => some (.list (d :: items) :: rest, .commaOrClose)
  | .named fields name :: rest => some (.record ((name, d) :: fields) :: rest, .commaOrClose)
  | .record _ :: _ => none

/-- The first token of a value. -/
def enter? (stack : List Frame) : Token → Option ReaderState
  | .null => place? stack .null
  | .bool b => place? stack (.bool b)
  | .number l => place? stack (.number l)
  | .text s => place? stack (.text s)
  | .openList => some (.list [] :: stack, .itemOrClose)
  | .openRecord => some (.record [] :: stack, .nameOrClose)
  | _ => none

/-- The innermost frame is closed by the mark that fits it. -/
def close? : List Frame → Token → Option ReaderState
  | .list items :: rest, .closeList => place? rest (.list items.reverse)
  | .record fields :: rest, .closeRecord => place? rest (.record fields.reverse)
  | _, _ => none

def step? : ReaderState → Token → Option ReaderState
  | (stack, .value), t => enter? stack t
  | (stack, .itemOrClose), .closeList => close? stack .closeList
  | (stack, .itemOrClose), t => enter? stack t
  | (stack, .nameOrClose), .closeRecord => close? stack .closeRecord
  | (stack, .nameOrClose), .text s => some (stack, .colon s)
  | (stack, .name), .text s => some (stack, .colon s)
  | (.record fields :: rest, .colon name), .colon => some (.named fields name :: rest, .value)
  | (.list items :: rest, .commaOrClose), .comma => some (.list items :: rest, .value)
  | (.record fields :: rest, .commaOrClose), .comma => some (.record fields :: rest, .name)
  | (stack, .commaOrClose), t => close? stack t
  | _, _ => none

/-- The document that a reader has, once it awaits nothing more. -/
def finish? : ReaderState → Option (Doc Literal)
  | (_, .nothing d) => some d
  | _ => none

def ofTokens? (ts : List Token) : Option (Doc Literal) := (ts.foldlM step? ([], .value)).bind finish?

def read? (cs : List Char) : Option (Doc Literal) := (Token.scan? cs).bind ofTokens?

end Doc
end GlyphChain
