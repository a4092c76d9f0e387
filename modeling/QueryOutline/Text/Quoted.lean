import QueryOutline.Text.Hex
import QueryOutline.Text.Letter
import QueryOutline.Text.Printable

/-!
Quoted texts, as error messages and logs show them: in single quotes, or in
double quotes when the text holds a single quote and no double one. A quote of
the chosen kind and the backslash are escaped, and so is every letter that is not
printable. Quoted bytes follow the same rule, with every byte that is not a
printable character of ASCII escaped.
-/

namespace QueryOutline.Text

def quoteChar (delimiter c : Char) : List Char :=
  if c = delimiter || c = '\\' then ['\\', c]
  else if c = '\t' then ['\\', 't']
  else if c = '\n' then ['\\', 'n']
  else if c = '\r' then ['\\', 'r']
  else if isPrintable c then [c]
  else if c.toNat < 0x100 then '\\' :: 'x' :: hex 2 c.toNat
  else if c.toNat < 0x10000 then '\\' :: 'u' :: hex 4 c.toNat
  else '\\' :: 'U' :: hex 8 c.toNat

/-- The quote that needs the fewer escapes. -/
def delimiterFor (hasSingle hasDouble : Bool) : Char :=
  if hasSingle && !hasDouble then '"' else '\''

def quoteLetter (delimiter : Char) : Letter → List Char
  | .char c => quoteChar delimiter c
  | .surrogate n => '\\' :: 'u' :: hex 4 n

def quoteLetters (ls : List Letter) : String :=
  let delimiter := delimiterFor (ls.contains (.char '\'')) (ls.contains (.char '"'))
  String.ofList (delimiter :: (ls.flatMap (quoteLetter delimiter) ++ [delimiter]))

def quote (s : String) : String :=
  quoteLetters (lettersOf s)

def quoteByte (delimiter : Char) (b : UInt8) : List Char :=
  if b.toNat < 0x80 then quoteChar delimiter (Char.ofNat b.toNat)
  else '\\' :: 'x' :: hex 2 b.toNat

def quoteBytes (content : List UInt8) : String :=
  let delimiter := delimiterFor (content.contains 0x27) (content.contains 0x22)
  String.ofList ('b' :: delimiter :: (content.flatMap (quoteByte delimiter) ++ [delimiter]))

/-- As much of a quoted text as a message shows. -/
def quoteStart (ls : List Letter) : String :=
  String.ofList ((quoteLetters ls).toList.take 200)

end QueryOutline.Text
