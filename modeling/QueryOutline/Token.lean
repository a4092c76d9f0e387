import QueryOutline.Text.Blank

/-!
Tokens of a query document. A token is one punctuation character, a word, or a
quoted literal with its delimiters; blanks and commas only separate. Every text
has tokens: nothing is rejected, and a literal that is never closed is the last
token.
-/

namespace QueryOutline

abbrev Token := String

namespace Token

def isPunctuation (c : Char) : Bool :=
  ['{', '}', '(', ')', '[', ']', ':', '!', '$', '@'].contains c

def isQuote (c : Char) : Bool :=
  c == '"' || c == '\''

def isSeparator (c : Char) : Bool :=
  c == ',' || Text.isBlank c

/-- The state of a scan between two characters. Finished tokens and pending
characters are held latest first. -/
structure Scan where
  finished : List Token := []
  pending : List Char := []
  /-- The delimiter of the literal that the scan is inside of. -/
  delimiter : Option Char := none
  afterBackslash : Bool := false
  deriving DecidableEq, Repr

namespace Scan

def cut (s : Scan) : Scan :=
  if s.pending.isEmpty then s
  else { s with finished := String.ofList s.pending.reverse :: s.finished, pending := [] }

/-- Inside a literal every character belongs to it, and its delimiter ends it
unless a backslash stands directly before. -/
def step (s : Scan) (c : Char) : Scan :=
  let next := match s.delimiter with
    | some q =>
        let longer := { s with pending := c :: s.pending }
        if c = q && !s.afterBackslash then { longer.cut with delimiter := none } else longer
    | none =>
        if isQuote c then { s.cut with pending := [c], delimiter := some c }
        else if isSeparator c then s.cut
        else if isPunctuation c then { s.cut with finished := c.toString :: s.cut.finished }
        else { s with pending := c :: s.pending }
  { next with afterBackslash := c == '\\' }

def tokens (s : Scan) : List Token :=
  s.cut.finished.reverse

end Scan

def scan (text : String) : Scan :=
  text.toList.foldl Scan.step {}

end Token

def tokenize (text : String) : List Token :=
  (Token.scan text).tokens

namespace Token

def isLiteral (t : Token) : Bool :=
  match t.toList with
  | c :: _ => isQuote c
  | [] => false

/-- A literal that does not end in a delimiter of its own, or whose last
delimiter follows a backslash. -/
def isUnterminated (t : Token) : Bool :=
  isLiteral t && match t.toList.reverse with
    | last :: before :: _ => t.toList.head? != some last || before == '\\'
    | _ => true

end Token

end QueryOutline
