import QueryOutline.Settings
import QueryOutline.Text.Lines
import QueryOutline.Text.Search
import QueryOutline.Yaml.Data

/-!
Settings files. A file holds a mapping or nothing; styles in it extend the default
ones instead of replacing them.
-/

namespace QueryOutline

/-- What a name in a file system leads to. -/
inductive Entry where
  | missing
  | directory
  | file (content : List UInt8)
  deriving DecidableEq, Repr

inductive SettingsFault where
  | unreadable (path : String)
  | notMapping (path : String)
  | invalid (path : String) (problems : List Problem)
  /-- The bytes of the file are no text. -/
  | undecodable
  /-- A key of the mapping is no text. -/
  | foreignKey
  /-- A scalar has no value of its kind, an escape names no letter, or nodes lie too deep
  inside one another. -/
  | badData (fault : Yaml.Fault)
  deriving DecidableEq, Repr

def Problem.text (p : Problem) : String :=
  let steps := p.place.map fun
    | .key name => name
    | .number n => toString n
  ".".intercalate steps ++ " " ++ p.defect.code

/-- The message, which begins with what went wrong where; other faults of a file
have none. -/
def SettingsFault.message? : SettingsFault → Option String
  | unreadable path => some ("Cannot read settings file " ++ path ++ ": not readable as YAML")
  | notMapping path => some ("Settings file " ++ path ++ " must contain a mapping")
  | invalid path problems =>
      some ("Invalid settings in " ++ path ++ ": " ++ "; ".intercalate (problems.map Problem.text))
  | _ => none

namespace Settings

def defaultFile : String := ".gqlens.yaml"

/-- A path without empty parts and parts that stay in place. -/
def cleanPath (path : String) : String :=
  let parts := (Text.splitAtEach '/' path.toList).filter fun p => !p.isEmpty && p != ['.']
  let joined := (List.intersperse ['/'] parts).flatten
  let root := path.toList.takeWhile (· == '/')
  let cleaned := (if root.length = 2 then root else root.take 1) ++ joined
  if cleaned.isEmpty then "." else String.ofList cleaned

/-- Styles that are given as a mapping extend the default ones. -/
def extendStyles (entries : List (Value × Value)) : List (Value × Value) :=
  let defaults := defaultRoleStyles.map fun (role, style) => (Value.text role, Value.text style)
  entries.map fun
    | (key, .mapping styles) =>
        if key.isText "role_styles" then (key, .mapping (styles.foldl Value.putEntry defaults))
        else (key, .mapping styles)
    | e => e

def ofData (d : Defaults) (path : String) (data : Value) : Except SettingsFault Settings :=
  match if data.isBlank then .mapping [] else data with
  | .mapping entries =>
      if entries.any fun e => !e.1.isAnyText then .error .foreignKey
      else match ofEntries d (extendStyles entries) with
        | .ok s => .ok s
        | .failed problems => .error (.invalid path problems)
  | _ => .error (.notMapping path)

def ofFile (d : Defaults) (path : String) : Entry → Except SettingsFault Settings
  | .file content =>
      match Text.ofBytes? content with
      | none => .error .undecodable
      | some text =>
          match Yaml.load text with
          | .ok data => ofData d path data
          | .error .malformed => .error (.unreadable path)
          | .error fault => .error (.badData fault)
  | _ => .error (.unreadable path)

end Settings

end QueryOutline
