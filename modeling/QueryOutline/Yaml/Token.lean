import QueryOutline.Yaml.Fault

/-!
Tokens of a settings file. Indentation has been turned into tokens of its own,
and a key has its token in front of it.
-/

namespace QueryOutline.Yaml

inductive Token where
  | versionDirective (major : Nat)
  | tagDirective (handle target : String)
  | otherDirective
  | documentStart
  | documentEnd
  | blockSequenceStart
  | blockMappingStart
  | blockEnd
  | flowSequenceStart
  | flowSequenceEnd
  | flowMappingStart
  | flowMappingEnd
  | blockEntry
  | flowEntry
  | key
  | value
  | reference (name : String)
  | anchor (name : String)
  /-- Without a handle the suffix is the whole tag. -/
  | tag (handle : Option String) (suffix : String)
  | scalar (content : List Text.Letter) (isPlain : Bool)
  deriving DecidableEq, Repr, Inhabited

/-- The tokens of a text, up to its end or to the fault that keeps the next one from
being known. -/
structure Tokens where
  list : List Token
  fault? : Option Fault := none
  deriving Repr

end QueryOutline.Yaml
