import QueryOutline.Text.Quoted
import QueryOutline.Value.Checked

/-!
Settings of the display. What a settings file does not give is taken from the
defaults, two of which the environment may set; defaults are not checked against
the bounds that hold for given values.
-/

namespace QueryOutline

/-- The defaults that the environment may set. -/
structure Defaults where
  indentWidth : Int := 2
  highlightStyle : String := "bold black on yellow"
  deriving DecidableEq, Repr

/-- The style of each role, unless a setting replaces it. -/
def defaultRoleStyles : List (String × String) :=
  [("keyword", "bold magenta"), ("definition_name", "blue"), ("name", "cyan"),
    ("alias", "medium_purple"), ("type", "yellow"), ("variable", "dark_orange"),
    ("argument", "medium_purple"), ("value", "green"), ("directive", "magenta"),
    ("punctuation", "grey50")]

structure Settings where
  indentWidth : Int
  highlightStyle : String
  roleStyles : List (String × String)
  maxDocumentBytes : Nat
  deriving DecidableEq, Repr

namespace Settings

def defaultMaxDocumentBytes : Nat := 1024 * 1024

def ofDefaults (d : Defaults) : Settings :=
  ⟨d.indentWidth, d.highlightStyle, defaultRoleStyles, defaultMaxDocumentBytes⟩

def styleFor (s : Settings) (role : String) : String :=
  (s.roleStyles.lookup role).getD ""

/-- The same settings, in whatever order the styles are given. -/
def agrees (a b : Settings) : Bool :=
  a.indentWidth == b.indentWidth && a.highlightStyle == b.highlightStyle &&
    a.maxDocumentBytes == b.maxDocumentBytes &&
    (a.roleStyles ++ b.roleStyles).all fun (role, _) =>
      a.roleStyles.lookup role == b.roleStyles.lookup role

/-- A number as it is shown, unless it has more digits than are written. -/
def integerText (n : Int) : String :=
  if n.natAbs < Nat.pow 10 Text.maxIntegerDigits then toString n
  else "<unprintable int object>"

/-- How a key of a mapping is named in the place of a problem. -/
def keyStep : Value → Step
  | .text s => .key s
  | .broken letters => .key (Text.repaired letters)
  | .int n => if Value.fitsWord n then .number n else .key (integerText n)
  | .bool b => .number (if b then 1 else 0)
  | .real x => .key x.text
  | .null => .key "None"
  | .moment m => .key m.text
  | .bytes content => .key (Text.quoteBytes content)
  | .list _ | .mapping _ => .key ""

/-- A style for a key. A key that is no text is reported before its value. -/
def readStyle (entry : Value × Value) : Checked (String × String) :=
  let (key, style) := entry
  let step := keyStep key
  Prod.mk <$> Checked.within step (Checked.within (.key "[key]") key.readText)
    <*> Checked.within step style.readText

/-- Put a style behind all others, or in the place of the one for the same role: two
keys may be read as one text. -/
def putStyle (styles : List (String × String)) (role style : String) :
    List (String × String) :=
  if styles.any (·.1 == role) then
    styles.map fun other => if other.1 == role then (role, style) else other
  else styles ++ [(role, style)]

def readStyles : List (Value × Value) → Checked (List (String × String))
  | [] => .ok []
  | e :: es => List.cons <$> readStyle e <*> readStyles es

def readRoleStyles : Value → Checked (List (String × String))
  | .mapping entries =>
      (fun styles => styles.foldl (fun found (role, style) => putStyle found role style) []) <$>
        readStyles entries
  | _ => .defect .notMapping

open Value in
def ofEntries (d : Defaults) (e : List (Value × Value)) : Checked Settings :=
  Settings.mk
    <$> optional e "indent_width" d.indentWidth (fun v =>
      ((readInteger v).require .belowLeast fun n => decide (0 ≤ n)).require
        .aboveGreatest fun n => decide (n ≤ 16))
    <*> optional e "highlight_style" d.highlightStyle readText
    <*> optional e "role_styles" defaultRoleStyles readRoleStyles
    <*> (Int.toNat <$> optional e "max_document_bytes" (defaultMaxDocumentBytes : Int) fun v =>
      (readInteger v).require .notAbove fun n => decide (0 < n))

end Settings

end QueryOutline
