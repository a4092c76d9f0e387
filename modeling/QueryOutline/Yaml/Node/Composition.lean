import QueryOutline.Yaml.Node
import QueryOutline.Yaml.Token

/-!
From the tokens of a settings file to the nodes of its document. The readers pass on
the tokens that are left, the nodes made so far and the ones that are anchored. A token
is looked at no sooner than it decides something, since the fault behind the last one
counts only if the text is well formed as far as the tokens go.

Every reader takes a token before it calls a second one of its own number of steps, or
calls one with fewer; the bound on the steps follows from the number of tokens and is
never reached.
-/

namespace QueryOutline.Yaml

/-- What a reader passes on. -/
structure Composer where
  tokens : Tokens
  graph : Graph := {}
  anchors : List (String × NodeId) := []
  /-- What the handles of tags stand for. -/
  handles : List (String × String) := []

abbrev Compose := StateT Composer (Except Fault)

namespace Composer

def malformed {α : Type} : Compose α :=
  throw .malformed

def peek : Compose (Option Token) := do
  let ts := (← get).tokens
  match ts.list, ts.fault? with
  | t :: _, _ => return some t
  | [], none => return none
  | [], some fault => throw fault

def drop : Compose Unit :=
  modify fun c => { c with tokens := { c.tokens with list := c.tokens.list.tail } }

def skip (t : Token) : Compose Bool := do
  if (← peek) = some t then
    drop
    return true
  else return false

def expect (t : Token) : Compose Unit := do
  if !(← skip t) then malformed

def isAtAny (ts : List Token) : Compose Bool := do
  return (← peek).any ts.contains

def anchored (name : String) : Compose NodeId := do
  match (← get).anchors.lookup name with
  | some id => return id
  | none => malformed

/-- Add a node under its anchor, which has to be a new one. -/
def add (anchor : Option String) (n : Node) : Compose NodeId := do
  let c ← get
  let id := c.graph.size
  let c := { c with graph := c.graph.add n }
  match anchor with
  | none => set c
  | some name =>
      if (c.anchors.lookup name).isSome then malformed
      else set { c with anchors := (name, id) :: c.anchors }
  return id

/-- Add a collection before its parts, which may refer to it. -/
def collect (anchor : Option String) (parts : Compose Node) : Compose NodeId := do
  let id ← add anchor .empty
  let n ← parts
  modify fun c => { c with graph := c.graph.put id n }
  return id

def absent : Compose NodeId :=
  add none .empty

/-- The anchor and the tag in front of a node, in any order. -/
def properties : Compose (Option String × Option (Option String × String)) := do
  match ← peek with
  | some (.anchor name) =>
      drop
      match ← peek with
      | some (.tag handle suffix) => drop; return (some name, some (handle, suffix))
      | _ => return (some name, none)
  | some (.tag handle suffix) =>
      drop
      match ← peek with
      | some (.anchor name) => drop; return (some name, some (handle, suffix))
      | _ => return (none, some (handle, suffix))
  | _ => return (none, none)

/-- The full tag; a lone exclamation mark stays one. -/
def resolve (tag : Option (Option String × String)) : Compose (Option String) := do
  match tag with
  | none => return none
  | some (none, suffix) => return some suffix
  | some (some handle, suffix) =>
      match (← get).handles.lookup handle with
      | some target => return some (target ++ suffix)
      | none => malformed

/-- The kind of a node with the tag, given the kind of one without. -/
def kind (tag : Option String) (untagged : Tag) : Tag :=
  match tag with
  | none => untagged
  | some "!" => untagged
  | some name => .ofName name

/-- The kind of a scalar. Text that is not plain is text, unless an exclamation
mark leaves it to the content. -/
def scalarKind (tag : Option String) (content : List Text.Letter) (isPlain : Bool) : Tag :=
  let plain := Plain.tag (Text.shownLetters content)
  kind tag (if isPlain || tag.isSome then plain else .text)

/-- Where a node may stand, which decides how it may be written. -/
inductive Context where
  | flow
  | block
  /-- Under a key, where a sequence need not be indented. -/
  | underKey
  deriving DecidableEq

/-- A node, unless one of the tokens stands there instead. -/
def nodeUnless (node : Compose NodeId) (ts : List Token) : Compose NodeId := do
  if ← isAtAny ts then absent else node

/-- An anchor or a tag may stand alone, in front of an empty scalar. -/
def bare (anchor tag : Option String) : Compose NodeId :=
  if anchor.isSome || tag.isSome then add anchor (.scalar (scalarKind tag [] true) [])
  else malformed

/-- Nodes are not read any further inside one another. -/
def maxDepth : Nat := 488

mutual

/-- The node at the current token, given the number of nodes around it. -/
def node : Nat → Nat → Context → Compose NodeId
  | 0, _, _ => malformed
  | steps + 1, depth, context => do
      if maxDepth < depth then throw .nestedTooDeep
      match ← peek with
      | some (.reference name) =>
          drop
          anchored name
      | _ =>
          let (anchor, written) ← properties
          let tag ← resolve written
          let sequenceOf := fun (items : Compose (List NodeId)) =>
            collect anchor (return .sequence (kind tag .sequence) (← items))
          let mappingOf := fun (entries : Compose (List (NodeId × NodeId))) =>
            collect anchor (return .mapping (kind tag .mapping) (← entries))
          match ← peek with
          | some (.scalar content isPlain) =>
              drop
              add anchor (.scalar (scalarKind tag content isPlain) content)
          | some .flowSequenceStart =>
              drop
              sequenceOf (flowItems steps (depth + 1) true)
          | some .flowMappingStart =>
              drop
              mappingOf (flowEntries steps (depth + 1) true)
          | some .blockSequenceStart =>
              if context = .flow then bare anchor tag
              else
                drop
                sequenceOf (blockItems steps (depth + 1))
          | some .blockMappingStart =>
              if context = .flow then bare anchor tag
              else
                drop
                mappingOf (blockEntries steps (depth + 1))
          | some .blockEntry =>
              if context = .underKey then sequenceOf (looseItems steps (depth + 1))
              else bare anchor tag
          | _ => bare anchor tag
termination_by structural steps => steps

def blockItems : Nat → Nat → Compose (List NodeId)
  | 0, _ => malformed
  | steps + 1, depth => do
      if ← skip .blockEntry then
        let n ← nodeUnless (node steps depth .block) [.blockEntry, .blockEnd]
        return n :: (← blockItems steps depth)
      else
        expect .blockEnd
        return []
termination_by structural steps => steps

/-- The items of a sequence that is not indented under its key. -/
def looseItems : Nat → Nat → Compose (List NodeId)
  | 0, _ => malformed
  | steps + 1, depth => do
      if ← skip .blockEntry then
        let n ← nodeUnless (node steps depth .block) [.blockEntry, .key, .value, .blockEnd]
        return n :: (← looseItems steps depth)
      else return []
termination_by structural steps => steps

def blockEntries : Nat → Nat → Compose (List (NodeId × NodeId))
  | 0, _ => malformed
  | steps + 1, depth => do
      let ending := [.key, .value, .blockEnd]
      if ← skip .key then
        let key ← nodeUnless (node steps depth .underKey) ending
        let value ←
          if ← skip .value then nodeUnless (node steps depth .underKey) ending else absent
        return (key, value) :: (← blockEntries steps depth)
      else
        expect .blockEnd
        return []
termination_by structural steps => steps

/-- The items of a flow sequence, up to its bracket. A key begins a mapping of one
entry. -/
def flowItems : Nat → Nat → Bool → Compose (List NodeId)
  | 0, _, _ => malformed
  | steps + 1, depth, isFirst => do
      if ← skip .flowSequenceEnd then return []
      else
        if !isFirst then expect .flowEntry
        if ← skip .key then
          let n ← collect none do
            let key ← nodeUnless (node steps (depth + 1) .flow)
              [.value, .flowEntry, .flowSequenceEnd]
            let value ← if ← skip .value then
                nodeUnless (node steps (depth + 1) .flow) [.flowEntry, .flowSequenceEnd]
              else absent
            return .mapping .mapping [(key, value)]
          return n :: (← flowItems steps depth false)
        else if ← skip .flowSequenceEnd then return []
        else
          let n ← node steps depth .flow
          return n :: (← flowItems steps depth false)
termination_by structural steps => steps

def flowEntries : Nat → Nat → Bool → Compose (List (NodeId × NodeId))
  | 0, _, _ => malformed
  | steps + 1, depth, isFirst => do
      if ← skip .flowMappingEnd then return []
      else
        if !isFirst then expect .flowEntry
        if ← skip .key then
          let key ← nodeUnless (node steps depth .flow) [.value, .flowEntry, .flowMappingEnd]
          let value ← if ← skip .value then
              nodeUnless (node steps depth .flow) [.flowEntry, .flowMappingEnd]
            else absent
          return (key, value) :: (← flowEntries steps depth false)
        else if ← skip .flowMappingEnd then return []
        else
          let key ← node steps depth .flow
          let value ← absent
          return (key, value) :: (← flowEntries steps depth false)
termination_by structural steps => steps

end

/-- The handles that need no directive. -/
def standardHandles : List (String × String) :=
  [("!", "!"), ("!!", Tag.base)]

/-- The directives in front of a document: one version, of major number one, and
one target for every handle. -/
def directives : Nat → Bool → List (String × String) → Compose (List (String × String))
  | 0, _, _ => malformed
  | steps + 1, hasVersion, handles => do
      match ← peek with
      | some (.versionDirective major) =>
          drop
          if hasVersion || major ≠ 1 then malformed else directives steps true handles
      | some (.tagDirective handle target) =>
          drop
          if (handles.lookup handle).isSome then malformed
          else directives steps hasVersion ((handle, target) :: handles)
      | some .otherDirective =>
          drop
          directives steps hasVersion handles
      | _ => return handles ++ standardHandles

def isDirective : Token → Bool
  | .versionDirective _ | .tagDirective .. | .otherDirective => true
  | _ => false

/-- Nothing may follow a document but marks of its end. A second document is refused
once its directives have been read. -/
def expectEnd : Nat → Compose Unit
  | 0 => malformed
  | steps + 1 => do
      if ← skip .documentEnd then expectEnd steps
      else if (← peek).isSome then
        let _ ← directives steps false []
        malformed

def document (steps : Nat) : Compose (Option NodeId) := do
  match ← peek with
  | none => return none
  | some first =>
      let n ←
        if isDirective first || first = .documentStart then do
          let handles ← directives steps false []
          modify fun c => { c with handles }
          expect .documentStart
          match ← peek with
          | none => absent
          | some t =>
              if isDirective t || t = .documentStart || t = .documentEnd then absent
              else node steps 0 .block
        else do
          modify fun c => { c with handles := standardHandles }
          node steps 0 .block
      expectEnd steps
      return some n

end Composer

/-- The nodes of the document that the tokens write, with the outermost one, if there
is a document. -/
def Graph.ofTokens (ts : Tokens) : Except Fault (Option (Graph × NodeId)) := do
  let (root, c) ← (Composer.document (ts.list.length + 2)).run { tokens := ts }
  return root.map fun id => (c.graph, id)

end QueryOutline.Yaml
