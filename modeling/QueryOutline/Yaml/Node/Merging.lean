import QueryOutline.Yaml.Fault
import QueryOutline.Yaml.Node

/-!
Entries that a mapping takes over from others. The value of a merge key is a mapping
or a sequence of them; its entries come before the mapping's own, and of several
mappings the first one counts most, so that it comes last. The key that stands for a
mapping's own value becomes text like any other key.

This happens once to every mapping, but a mapping may be met again while it happens: if
it takes over its own entries, the inner pass finishes it.
-/

namespace QueryOutline.Yaml

/-- Nodes, with the mappings that have taken over all they have to. -/
structure Merger where
  graph : Graph
  done : List NodeId := []

namespace Merger

def putEntries (m : Merger) (id : NodeId) (entries : List (NodeId × NodeId)) : Merger :=
  { m with graph := m.graph.put id (.mapping (m.graph.node id).tag entries) }

def finish (m : Merger) (id : NodeId) (entries : List (NodeId × NodeId)) : Merger :=
  let m := m.putEntries id entries
  { m with done := id :: m.done }

def makeText (m : Merger) (id : NodeId) : Merger :=
  { m with graph := m.graph.put id ((m.graph.node id).withTag .text) }

/-- The entries that several mappings give, those of the first one last. -/
def givenByAll (merge : NodeId → Merger → Except Fault Merger) :
    List NodeId → Merger → Except Fault (List (NodeId × NodeId) × Merger)
  | [], m => .ok ([], m)
  | id :: ids, m =>
      match m.graph.node id with
      | .mapping .. => do
          let m ← merge id m
          let first := m.graph.entries id
          let (others, m) ← givenByAll merge ids m
          return (others ++ first, m)
      | _ => .error .malformed

def given (merge : NodeId → Merger → Except Fault Merger) (id : NodeId) (m : Merger) :
    Except Fault (List (NodeId × NodeId) × Merger) :=
  match m.graph.node id with
  | .mapping .. => do
      let m ← merge id m
      return (m.graph.entries id, m)
  | .sequence _ items => givenByAll merge items m
  | .scalar .. => .error .malformed

/-- Go through the entries of a mapping, with its own ones so far, the latest one
first, and those it has taken over. -/
def mergeEntries (merge : NodeId → Merger → Except Fault Merger) (id : NodeId)
    (own taken : List (NodeId × NodeId)) :
    List (NodeId × NodeId) → Merger → Except Fault Merger
  | [], m => .ok (m.finish id (taken ++ own.reverse))
  | (key, value) :: rest, m =>
      match (m.graph.node key).tag with
      | .merge => do
          let (more, m) ← given merge value (m.putEntries id (own.reverse ++ rest))
          if m.done.contains id then return m.finish id (taken ++ more ++ m.graph.entries id)
          else mergeEntries merge id own (taken ++ more) rest m
      | .default => mergeEntries merge id ((key, value) :: own) taken rest (m.makeText key)
      | _ => mergeEntries merge id ((key, value) :: own) taken rest m

/-- Let a mapping take over its entries. The bound is the number of merge keys that may
be met inside one another. -/
def merge : Nat → NodeId → Merger → Except Fault Merger
  | 0, _, _ => .error .malformed
  | depth + 1, id, m =>
      if m.done.contains id then .ok m
      else mergeEntries (merge depth) id [] [] (m.graph.entries id) m

end Merger

def Graph.entryCount (g : Graph) : Nat :=
  g.nodes.toList.foldl (fun n node => n + match node with
    | .mapping _ entries => entries.length
    | _ => 0) 0

end QueryOutline.Yaml
