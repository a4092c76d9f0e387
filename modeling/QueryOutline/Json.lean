import QueryOutline.Text.Hex

/-!
JSON documents, whose numbers are integers, and their two written forms: on one
line, and with one member a line. Both are plain ASCII: every other character is
escaped by its UTF-16 units.
-/

namespace QueryOutline

inductive Json where
  | null
  | bool (b : Bool)
  | int (n : Int)
  | text (s : String)
  | list (items : List Json)
  | object (members : List (String × Json))
  deriving Repr

namespace Json

def escapeUnit (n : Nat) : List Char :=
  '\\' :: 'u' :: Text.hex 4 n

def escapeChar (c : Char) : List Char :=
  if c = '"' || c = '\\' then ['\\', c]
  else if c = '\n' then ['\\', 'n']
  else if c = '\r' then ['\\', 'r']
  else if c = '\t' then ['\\', 't']
  else if c.toNat = 0x08 then ['\\', 'b']
  else if c.toNat = 0x0C then ['\\', 'f']
  else if 0x20 ≤ c.toNat && c.toNat ≤ 0x7E then [c]
  else if c.toNat < 0x10000 then escapeUnit c.toNat
  else
    let n := c.toNat - 0x10000
    escapeUnit (0xD800 + n / 0x400) ++ escapeUnit (0xDC00 + n % 0x400)

def quote (s : String) : String :=
  String.ofList ('"' :: (s.toList.flatMap escapeChar ++ ['"']))

mutual

def line : Json → String
  | null => "null"
  | bool b => if b then "true" else "false"
  | int n => toString n
  | text s => quote s
  | list items => "[" ++ ", ".intercalate (lineItems items) ++ "]"
  | object members => "\x7b" ++ ", ".intercalate (lineMembers members) ++ "\x7d"

def lineItems : List Json → List String
  | [] => []
  | j :: js => line j :: lineItems js

def lineMembers : List (String × Json) → List String
  | [] => []
  | m :: ms => lineMember m :: lineMembers ms

def lineMember : String × Json → String
  | (key, j) => quote key ++ ": " ++ line j

end

/-- A bracketed group with one part a line, two columns further in than the
brackets. A group without parts stays on one line. -/
def block (margin : Nat) (opening closing : String) (parts : List String) : String :=
  if parts.isEmpty then opening ++ closing
  else
    let newLine := "\n" ++ "".pushn ' ' margin
    opening ++ newLine ++ "  " ++ ("," ++ newLine ++ "  ").intercalate parts ++
      newLine ++ closing

mutual

/-- The document over several lines, when its first line begins at the margin. -/
def lines (margin : Nat) : Json → String
  | list items => block margin "[" "]" (linesItems (margin + 2) items)
  | object members => block margin "\x7b" "\x7d" (linesMembers (margin + 2) members)
  | j => line j

def linesItems (margin : Nat) : List Json → List String
  | [] => []
  | j :: js => lines margin j :: linesItems margin js

def linesMembers (margin : Nat) : List (String × Json) → List String
  | [] => []
  | m :: ms => linesMember margin m :: linesMembers margin ms

def linesMember (margin : Nat) : String × Json → String
  | (key, j) => quote key ++ ": " ++ lines margin j

end

end Json

end QueryOutline
