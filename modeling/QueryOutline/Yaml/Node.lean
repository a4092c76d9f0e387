import QueryOutline.Yaml.Schema

/-!
Nodes of a settings file: scalars, sequences and mappings, each with the kind of data
that it stands for. The nodes of a document have numbers, and a collection names its
parts by their numbers; so an alias is the number of the node that it names, and a
node may be a part of itself.
-/

namespace QueryOutline.Yaml

abbrev NodeId := Nat

inductive Node where
  | scalar (tag : Tag) (content : List Text.Letter)
  | sequence (tag : Tag) (items : List NodeId)
  | mapping (tag : Tag) (entries : List (NodeId × NodeId))
  deriving Repr

namespace Node

def tag : Node → Tag
  | scalar tag _ => tag
  | sequence tag _ => tag
  | mapping tag _ => tag

def withTag (tag : Tag) : Node → Node
  | scalar _ content => scalar tag content
  | sequence _ items => sequence tag items
  | mapping _ entries => mapping tag entries

def empty : Node :=
  scalar .null []

end Node

/-- The nodes of a document. -/
structure Graph where
  nodes : Array Node := #[]
  deriving Repr

namespace Graph

def node (g : Graph) (id : NodeId) : Node :=
  g.nodes[id]?.getD .empty

def size (g : Graph) : Nat :=
  g.nodes.size

/-- Add a node, which takes the next number. -/
def add (g : Graph) (n : Node) : Graph :=
  ⟨g.nodes.push n⟩

def put (g : Graph) (id : NodeId) (n : Node) : Graph :=
  ⟨g.nodes.setIfInBounds id n⟩

def entries (g : Graph) (id : NodeId) : List (NodeId × NodeId) :=
  match g.node id with
  | .mapping _ entries => entries
  | _ => []

end Graph

end QueryOutline.Yaml
