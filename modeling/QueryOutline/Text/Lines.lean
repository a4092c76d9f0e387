import QueryOutline.Text.Utf8

/-!
Text as it is read from files: bytes are decoded, and the three ways to end a line
become one.
-/

namespace QueryOutline.Text

/-- A carriage return ends a line, alone or together with a line feed. -/
def unifyBreaks : List Char → List Char
  | [] => []
  | '\r' :: '\n' :: cs => '\n' :: unifyBreaks cs
  | c :: cs => (if c = '\r' then '\n' else c) :: unifyBreaks cs

def ofBytes? (content : List UInt8) : Option String :=
  (decodeUtf8 content).map fun cs => String.ofList (unifyBreaks cs)

end QueryOutline.Text
