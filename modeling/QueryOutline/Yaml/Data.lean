import QueryOutline.Yaml.Literal
import QueryOutline.Yaml.Node.Composition
import QueryOutline.Yaml.Node.Merging
import QueryOutline.Yaml.Token.Lexer

/-!
The data that a settings file holds. Every node is given its value once: a scalar as
soon as it is met, and a collection when its turn comes, after all that were met before
it. That order decides which of several faults is found. In a mapping a later entry
replaces an earlier one of the same key.
-/

namespace QueryOutline

namespace Value

def keyNumber? : Value → Option Int
  | bool b => some (if b then 1 else 0)
  | int n => some n
  | real x => x.whole?
  | _ => none

/-- Whether two keys are the same key. Numbers are compared by value. -/
def isSameKey (a b : Value) : Bool :=
  match keyNumber? a, keyNumber? b with
  | some m, some n => m == n
  | none, none =>
      match a, b with
      | null, null => true
      | real x, real y => x == y && x != .nan
      | text s, text t => s == t
      | broken s, broken t => s == t
      | bytes s, bytes t => s == t
      | moment s, moment t => s.isSame t
      | _, _ => false
  | _, _ => false

/-- Put an entry behind all others, or in the place of the one with its key. -/
def putEntry (entries : List (Value × Value)) (e : Value × Value) : List (Value × Value) :=
  if entries.any fun other => other.1.isSameKey e.1 then
    entries.map fun other => if other.1.isSameKey e.1 then (other.1, e.2) else other
  else entries ++ [e]

end Value

namespace Yaml

/-- What a node stands for; the parts of a collection are nodes again. -/
inductive Piece where
  | scalar (v : Value)
  /-- The value that is no number. All texts that name it stand for one and the same,
  which as a key is the same key. -/
  | commonNan
  | list (items : List NodeId)
  | pairs (entries : List (NodeId × NodeId))
  | mapping (entries : List (NodeId × NodeId))
  deriving Repr

/-- A document of which some nodes have been met, and the collections among these in
the order of their turns. -/
structure Builder where
  merger : Merger
  /-- A bound on merge keys inside one another. -/
  mergeDepth : Nat
  pieces : Array (Option Piece)
  turns : Array NodeId := #[]

abbrev Build := StateT Builder (Except Fault)

namespace Builder

def ofGraph (g : Graph) : Builder :=
  { merger := { graph := g }, mergeDepth := g.entryCount + 1
    pieces := (List.replicate g.size none).toArray }

def node (b : Builder) (id : NodeId) : Node :=
  b.merger.graph.node id

def piece? (b : Builder) (id : NodeId) : Option Piece :=
  b.pieces[id]?.getD none

def putPiece (b : Builder) (id : NodeId) (p : Piece) : Builder :=
  { b with pieces := b.pieces.setIfInBounds id (some p) }

/-- The text of a scalar. That of a mapping is the text of its own value, if it has one;
a mapping that is its own value has none. -/
def content (b : Builder) : Nat → NodeId → Except Fault (List Text.Letter)
  | 0, _ => .error .nestedTooDeep
  | steps + 1, id =>
      match b.node id with
      | .scalar _ content => .ok content
      | .sequence .. => .error .malformed
      | .mapping _ entries =>
          match entries.find? fun e => (b.node e.1).tag == .default with
          | some (_, value) => content b steps value
          | none => .error .malformed

/-- What a node stands for if it is one of the kinds that a text has. -/
def scalarPiece (b : Builder) (id : NodeId) : Except Fault Piece := do
  let text ← b.content (b.merger.graph.size + 1) id
  match (b.node id).tag, b.node id with
  | .timestamp, .mapping .. => .error .momentOfMapping
  | .float, _ =>
      let x ← Literal.float text
      return if Literal.isCommonNan text then .commonNan else .scalar (.real x)
  | tag, _ => return .scalar (← Literal.value tag text)

/-- Meet a collection, whose parts have to wait for its turn. -/
def defer (id : NodeId) (p : Piece) : Build Unit :=
  modify fun b => { b.putPiece id p with turns := b.turns.push id }

def meet (id : NodeId) : Build Unit := do
  let b ← get
  if (b.piece? id).isNone then
    match (b.node id).tag with
    | .sequence | .set => defer id (.list [])
    | .ordered | .pairs => defer id (.pairs [])
    | .mapping => defer id (.mapping [])
    | .merge | .default | .unknown => throw .malformed
    | _ => set (b.putPiece id (← b.scalarPiece id))

def meetAll (ids : List NodeId) : Build Unit :=
  ids.forM meet

/-- Whether two nodes are the same key. -/
def isSameKey (b : Builder) (i j : NodeId) : Bool :=
  i == j || match b.piece? i, b.piece? j with
    | some .commonNan, some .commonNan => true
    | some (.scalar v), some (.scalar w) => v.isSameKey w
    | _, _ => false

def isKey (b : Builder) (id : NodeId) : Bool :=
  match b.piece? id with
  | some (.scalar _) | some .commonNan => true
  | _ => false

def putEntry (b : Builder) (entries : List (NodeId × NodeId)) (e : NodeId × NodeId) :
    List (NodeId × NodeId) :=
  if entries.any fun other => b.isSameKey other.1 e.1 then
    entries.map fun other => if b.isSameKey other.1 e.1 then (other.1, e.2) else other
  else entries ++ [e]

/-- Meet the keys and the values of entries, and give those that are left of them. -/
def meetEntries (found : List (NodeId × NodeId)) :
    List (NodeId × NodeId) → Build (List (NodeId × NodeId))
  | [] => return found
  | (key, value) :: rest => do
      meet key
      if !(← get).isKey key then throw .malformed
      meet value
      meetEntries ((← get).putEntry found (key, value)) rest

def mappingEntries (id : NodeId) : Build (List (NodeId × NodeId)) := do
  let b ← get
  let merger ← b.merger.merge b.mergeDepth id
  set { b with merger }
  meetEntries [] (merger.graph.entries id)

def singleEntry (id : NodeId) : Build (NodeId × NodeId) := do
  match (← get).node id with
  | .mapping _ [(key, value)] =>
      meet key
      meet value
      return (key, value)
  | _ => throw .malformed

def collection (id : NodeId) : Build Piece := do
  match (← get).node id with
  | .sequence .sequence items =>
      meetAll items
      return .list items
  | .sequence .ordered items => return .pairs (← items.mapM singleEntry)
  | .sequence .pairs items => return .pairs (← items.mapM singleEntry)
  | .mapping .mapping _ => return .mapping (← mappingEntries id)
  | .mapping .set _ => return .list ((← mappingEntries id).map (·.1))
  | _ => throw .malformed

def build (id : NodeId) : Build Unit := do
  let p ← collection id
  modify (·.putPiece id p)

/-- Build the collections from one turn on. Every node has one turn at most. -/
def buildFrom : Nat → Nat → Build Unit
  | 0, _ => return
  | steps + 1, turn => do
      match (← get).turns[turn]? with
      | some id =>
          build id
          buildFrom steps (turn + 1)
      | none => return

/-- The value of a node. Of a collection that is further in than the given depth, what
it holds is not shown. -/
def value (b : Builder) : Nat → NodeId → Value
  | 0, id =>
      match b.piece? id with
      | some (.scalar v) => v
      | some .commonNan => .real .nan
      | some (.list _) | some (.pairs _) => .list []
      | some (.mapping _) => .mapping []
      | none => .null
  | depth + 1, id =>
      let shown := value b depth
      match b.piece? id with
      | some (.list items) => .list (items.map shown)
      | some (.pairs entries) => .list (entries.map fun e => .list [shown e.1, shown e.2])
      | some (.mapping entries) => .mapping (entries.map fun e => (shown e.1, shown e.2))
      | _ => shown id

end Builder

/-- Data is shown as far in as settings are read from it. -/
def shownDepth : Nat := 3

def Graph.data (g : Graph) (root : NodeId) : Except Fault Value := do
  let ((), b) ← StateT.run (Builder.meet root *> Builder.buildFrom (g.size + 1) 0) (.ofGraph g)
  return b.value shownDepth root

/-- The data of a text. A text without a document holds null. -/
def load (text : String) : Except Fault Value := do
  match ← Graph.ofTokens (Tokens.ofText text) with
  | none => return .null
  | some (g, root) => g.data root

end Yaml

end QueryOutline
