import QueryOutline.Forest
import QueryOutline.Text.Integer
import QueryOutline.Text.Search

/-!
Paths as arguments: indices with dots between them, each a written integer that is
not negative.
-/

namespace QueryOutline.CommandLine

inductive PathFault where
  | malformed (text : String)
  | negative (text : String)
  deriving DecidableEq, Repr

def PathFault.message : PathFault → String
  | malformed text => "'" ++ text ++ "' is not a dotted path like 0.1.2"
  | negative text => "'" ++ text ++ "' contains a negative index"

def readIndices : List (List Char) → Option (List Int)
  | [] => some []
  | part :: parts =>
      match Text.readInteger (String.ofList part), readIndices parts with
      | .ok n, some ns => some (n :: ns)
      | _, _ => none

def readPath (text : String) : Except PathFault Path :=
  match readIndices (Text.splitAtEach '.' text.toList) with
  | none => .error (.malformed text)
  | some indices =>
      if indices.any (· < 0) then .error (.negative text) else .ok (indices.map Int.toNat)

end QueryOutline.CommandLine
