import GlyphChain.Command.Arguments
import GlyphChain.Text.Units
/-!
# Suggestion — flags like an unknown one

The likeness of two words is the least number of insertions, deletions, substitutions and swaps of neighbours that
lead from one to the other, each unit moved at most once.  It is counted row by row: a row holds, for one beginning of
the first word, its distances to all beginnings of the second.
-/
namespace GlyphChain
namespace Command

/-- The row of the first `i + 1` units of `a`, from the rows of the first `i - 1` and `i`. -/
def distanceRow (a b : Text) (i : Nat) (before last : List Nat) : List Nat :=
  (List.range b.length).foldl (fun row j =>
    let cost := if a[i]? == b[j]? then 0 else 1
    let plain := min (min (last.getD (j + 1) 0 + 1) (row.getD j 0 + 1)) (last.getD j 0 + cost)
    let swapped := 0 < i && 0 < j && a[i]? == b[j - 1]? && a[i - 1]? == b[j]?
    row ++ [if swapped then min plain (before.getD (j - 1) 0 + 1) else plain]) [i + 1]

/-- The distance of two texts, unit by unit. -/
def distance (a b : Text) : Nat :=
  ((List.range a.length).foldl (fun rows i => (rows.2, distanceRow a b i rows.1 rows.2))
    ([], List.range (b.length + 1))).2.getLastD 0

/-- The greatest distance, and the greatest difference in length, of two words that are alike. -/
def reach : Nat := 3

/-- The distance as far as it matters: words of very different lengths are as far apart as can be. -/
def likeness (a b : Text) : Nat :=
  if reach < a.length - b.length ∨ reach < b.length - a.length then max a.length b.length else distance a b

/-- The nearest candidates so far and their distance. -/
structure Nearest where
  names : List String
  best : Nat

/-- One more candidate, which counts if over two fifths of the longer word stay in place. -/
def Nearest.add (units : Text) (n : Nearest) (name : String) : Nearest :=
  let other := Text.ofString name
  let d := likeness units other
  let longer := max units.length other.length
  if 2 * longer < 5 * (longer - d) then
    if d < n.best then ⟨[name], d⟩ else if d = n.best then ⟨n.names ++ [name], d⟩ else n
  else n

/-- The names of an action's flags that are nearest to a name, in order. -/
def similar (action : Action) (name : List Char) : List String :=
  ((action.flags.map Flag.name ++ ["help"]).foldl (Nearest.add (Text.ofChars name)) ⟨[], reach⟩).names.mergeSort
    (fun a b => decide (a ≤ b))

/-- What to say after an unknown flag; only flags with two hyphens have others like them. -/
def suggestion (action : Action) (flag : String) : String :=
  match flag.toList with
  | '-' :: '-' :: name =>
    match (similar action name).map ("--" ++ ·) with
    | [] => ""
    | [one] => "\n(Did you mean " ++ one ++ "?)"
    | several => "\n(Did you mean one of " ++ String.intercalate ", " several ++ "?)"
  | _ => ""

end Command
end GlyphChain
