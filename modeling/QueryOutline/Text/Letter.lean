/-!
Letters: what a text with escapes by number can be made of. Most letters are
characters; a surrogate is a number that stands for no character on its own and
that no encoding of a text has room for.
-/

namespace QueryOutline.Text

inductive Letter where
  | char (c : Char)
  | surrogate (n : Nat)
  deriving DecidableEq, Repr

namespace Letter

/-- The letter of a number, unless the number is beyond all characters. -/
def ofNumber? (n : Nat) : Option Letter :=
  if h : n.isValidChar then some (char (Char.ofNatAux n h))
  else if n < 0x110000 then some (surrogate n)
  else none

/-- The character of a letter. The one that stands for a surrogate is no digit, no
sign and no blank. -/
def shown : Letter → Char
  | char c => c
  | surrogate _ => '\uFFFD'

end Letter

def shownLetters (ls : List Letter) : List Char :=
  ls.map Letter.shown

def lettersOf (s : String) : List Letter :=
  s.toList.map .char

/-- The text that the letters write, if there is no surrogate among them. -/
def ofLetters? (ls : List Letter) : Option String :=
  if ls.all fun | .char _ => true | .surrogate _ => false then
    some (String.ofList (shownLetters ls))
  else none

/-- A text without surrogates: each of them leaves three replacement characters. -/
def repaired (ls : List Letter) : String :=
  String.ofList (ls.flatMap fun
    | .char c => [c]
    | .surrogate _ => List.replicate 3 '\uFFFD')

end QueryOutline.Text
