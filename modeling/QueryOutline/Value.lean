import QueryOutline.Text.Letter
import QueryOutline.Value.Binary64
import QueryOutline.Value.Moment

/-!
Data of a settings file or a JSON document, before its meaning is known. A
mapping keeps its keys in order, and a key may be any value.
-/

namespace QueryOutline

inductive Value where
  | null
  | bool (b : Bool)
  | int (n : Int)
  | real (x : Binary64)
  | text (s : String)
  /-- A text with a surrogate in it, which has no encoding. -/
  | broken (letters : List Text.Letter)
  | bytes (content : List UInt8)
  | moment (m : Moment)
  | list (items : List Value)
  | mapping (entries : List (Value × Value))
  deriving Repr, Inhabited

namespace Value

def ofLetters (ls : List Text.Letter) : Value :=
  match Text.ofLetters? ls with
  | some s => text s
  | none => broken ls

def isText (key : String) : Value → Bool
  | text s => s == key
  | _ => false

/-- Text of any kind, whether it has an encoding or not. -/
def isAnyText : Value → Bool
  | text _ | broken _ => true
  | _ => false

def lookup (entries : List (Value × Value)) (key : String) : Option Value :=
  (entries.find? fun e => e.1.isText key).map (·.2)

/-- Null, false, zero and what holds nothing. -/
def isBlank : Value → Bool
  | null => true
  | bool b => !b
  | int n => n == 0
  | real x => x.whole? == some 0
  | text s => s.isEmpty
  | broken _ => false
  | bytes content => content.isEmpty
  | moment _ => false
  | list items => items.isEmpty
  | mapping entries => entries.isEmpty

end Value

end QueryOutline
