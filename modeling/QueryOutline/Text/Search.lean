/-!
Substring search by code points, and splitting. The split at a term is at the first
place where it starts, overlapping places included; the empty term starts everywhere.
-/

namespace QueryOutline.Text

/-- What stands before the first occurrence of the term, and what after it. -/
def splitAtFirst? (term : List Char) : List Char → Option (List Char × List Char)
  | [] => if term.isEmpty then some ([], []) else none
  | c :: cs =>
      if term.isPrefixOf (c :: cs) then some ([], (c :: cs).drop term.length)
      else (splitAtFirst? term cs).map fun (before, after) => (c :: before, after)

def occursIn (term text : String) : Bool :=
  (splitAtFirst? term.toList text.toList).isSome

/-- The parts between separators, one more than there are separators. -/
def splitAtEach {α : Type} [DecidableEq α] (separator : α) : List α → List (List α)
  | [] => [[]]
  | c :: cs =>
      if c = separator then [] :: splitAtEach separator cs
      else match splitAtEach separator cs with
        | part :: parts => (c :: part) :: parts
        | [] => [[c]]

end QueryOutline.Text
