import GlyphChain.Fault
/-!
# FileTree — files by path

A directory with its files and subdirectories, in memory, and what reading a path in it gives.  The parts of a path
are walked one by one: an empty part or `.` stays in a directory and `..` goes up; going on below a file is a fault of
its own, and so is reading a directory.  Above the tree there are only directories, and nothing is found in them.
-/
namespace GlyphChain

/-- The files of a directory and all below it, each with the parts of its path. -/
structure FileTree where
  files : List (List String × List UInt8)

namespace FileTree

/-- A place in the tree, by the parts of its path, or somewhere above it. -/
inductive Place
  | inside (parts : List String)
  | above

/-- The parts of a path between its slashes. -/
def splitSlashes : List Char → List (List Char)
  | [] => [[]]
  | c :: cs =>
    if c == '/' then [] :: splitSlashes cs
    else match splitSlashes cs with
      | [] => [[c]]
      | part :: parts => (c :: part) :: parts

def parts (path : String) : List String := (splitSlashes path.toList).map String.ofList

def isHere (part : String) : Bool := part == "" || part == "."

/-- A tree with one more file, which hides an earlier one at its path. -/
def add (t : FileTree) (path : String) (bytes : List UInt8) : FileTree :=
  ⟨((parts path).filter (!isHere ·), bytes) :: t.files⟩

def content? (t : FileTree) (place : List String) : Option (List UInt8) :=
  (t.files.find? (fun f => f.1 == place)).map Prod.snd

/-- Whether a place is a directory: the root, or a proper beginning of a file's path. -/
def isDirectory (t : FileTree) (place : List String) : Bool :=
  place.isEmpty || t.files.any (fun f => place.isPrefixOf f.1 && place != f.1)

/-- The place that one part of a path leads to. -/
def enter (t : FileTree) : Place → String → Except FileFault Place
  | .above, part => if isHere part || part == ".." then .ok .above else .error .missing
  | .inside place, part =>
    if (t.content? place).isSome then .error .notDirectory
    else if !t.isDirectory place then .error .missing
    else if isHere part then .ok (.inside place)
    else if part == ".." then .ok (if place.isEmpty then .above else .inside place.dropLast)
    else .ok (.inside (place ++ [part]))

/-- Where the walk of a path begins: a leading slash leads above the tree. -/
def origin (path : String) : Place := if path.toList.head? == some '/' then .above else .inside []

/-- The bytes that reading a path gives. -/
def read (t : FileTree) (path : String) : Except FileFault (List UInt8) :=
  if path = "" then .error .missing
  else do
    match ← (parts path).foldlM t.enter (origin path) with
    | .above => .error .directory
    | .inside place =>
      match t.content? place with
      | some bytes => .ok bytes
      | none => if t.isDirectory place then .error .directory else .error .missing

end FileTree
end GlyphChain
