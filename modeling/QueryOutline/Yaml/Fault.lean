import QueryOutline.Text.Integer
import QueryOutline.Value.Moment

/-!
What can be wrong with the text of a settings file or with the data that it writes.
-/

namespace QueryOutline.Yaml

inductive Fault where
  /-- The text is not well formed, or a node cannot be of its kind. -/
  | malformed
  | nestedTooDeep
  /-- An escape by number beyond all characters. -/
  | noLetter
  /-- An escape by number beyond a word of 32 bits with its sign. -/
  | letterTooLarge
  | noNumber
  | integer (text : List Text.Letter) (base : Nat) (fault : Text.IntegerFault)
  | notFloat (text : List Text.Letter)
  /-- A floating number has too many parts in sixties. -/
  | tooManyParts
  | notBool
  | notMoment
  | momentOfMapping
  | date (fault : DateFault)
  deriving DecidableEq, Repr

/-- The message about a fault in the text of a scalar. -/
def Fault.message? : Fault → Option String
  | noLetter => some "chr() arg not in range(0x110000)"
  | integer text base fault => some (fault.message base text)
  | notFloat text => some ("could not convert string to float: " ++ Text.quoteLetters text)
  | date fault => some fault.message
  | _ => none

/-- What is missing is not well formed. -/
instance : MonadLift Option (Except Fault) where
  monadLift
    | some a => .ok a
    | none => .error .malformed

end QueryOutline.Yaml
