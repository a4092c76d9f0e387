/-!
Styled texts. A styled text is a sequence of pieces with a style each; its plain
form and its spans are read off the pieces. Control characters that a terminal
acts on are dropped from every piece.
-/

namespace QueryOutline

structure Piece where
  text : String
  style : String := ""
  deriving DecidableEq, Repr

/-- A style on the characters from a start up to a stop. -/
structure Span where
  start : Nat
  stop : Nat
  style : String
  deriving DecidableEq, Repr

abbrev StyledText := List Piece

namespace Piece

/-- Bell, backspace, vertical tab, form feed and carriage return. -/
def isDropped (c : Char) : Bool :=
  [0x07, 0x08, 0x0B, 0x0C, 0x0D].contains c.toNat

def visible (p : Piece) : List Char :=
  p.text.toList.filter (!isDropped ·)

end Piece

namespace StyledText

def plain (t : StyledText) : String :=
  String.ofList (t.flatMap Piece.visible)

/-- The spans of pieces that begin at an offset. A piece that was empty from the
start has none, while one that lost all its characters has an empty span. -/
def spansFrom (offset : Nat) : StyledText → List Span
  | [] => []
  | p :: ps =>
      let stop := offset + p.visible.length
      let others := spansFrom stop ps
      if p.text.isEmpty || p.style.isEmpty then others
      else { start := offset, stop, style := p.style } :: others

def spans (t : StyledText) : List Span :=
  spansFrom 0 t

end StyledText

end QueryOutline
