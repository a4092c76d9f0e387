import QueryOutline.Node
import QueryOutline.Text.Search

/-!
Matches of a search. A node matches directly when the term occurs in one of its
own texts, and it matches when it or a node below it does so directly. The empty
term has no matches.
-/

namespace QueryOutline

def Head.matchesDirectly (h : Head) (term : String) : Bool :=
  h.ownTexts.any (Text.occursIn term)

namespace Forest

variable {α : Type}

/-- Values with their paths, each before those below it. The trees of the forest
are numbered from the given index. -/
def located (above : Path) (index : Nat) : Forest α → List (Path × α)
  | nil => []
  | cons a below rest =>
      (above ++ [index], a) ::
        (located (above ++ [index]) 0 below ++ located above (index + 1) rest)

def anyRoot (p : α → Bool) : Forest α → Bool
  | nil => false
  | cons a _ rest => p a || anyRoot p rest

/-- Every value with the mark that it or one below it satisfies the condition. -/
def markUp (p : α → Bool) : Forest α → Forest (α × Bool)
  | nil => nil
  | cons a below rest =>
      let marked := markUp p below
      cons (a, p a || marked.anyRoot (·.2)) marked (markUp p rest)

def markMatches (term : String) : Forest Head → Forest (Head × Bool) :=
  markUp fun h => term != "" && h.matchesDirectly term

/-- The paths of the nodes that match the term, in the order of the document. -/
def matchPaths (f : Forest Head) (term : String) : List Path :=
  ((f.markMatches term).located [] 0).filterMap fun (path, _, isMatch) =>
    if isMatch then some path else none

end Forest

end QueryOutline
