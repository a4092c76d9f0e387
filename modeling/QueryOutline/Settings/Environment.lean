import QueryOutline.Settings

/-!
Defaults from the environment. An indentation that is set has to be an integer.
-/

namespace QueryOutline.Defaults

def faultMessage (text : String) (fault : Text.IntegerFault) : String :=
  fault.message 10 (Text.lettersOf text)

/-- The text whose integer is wanted is given back with its fault. -/
def ofEnvironment (environment : List (String × String)) :
    Except (String × Text.IntegerFault) Defaults :=
  let highlightStyle :=
    (environment.lookup "GQLENS_HIGHLIGHT_STYLE").getD ({} : Defaults).highlightStyle
  match environment.lookup "GQLENS_INDENT_WIDTH" with
  | none => .ok { highlightStyle }
  | some text =>
      match Text.readInteger text with
      | .ok indentWidth => .ok { indentWidth, highlightStyle }
      | .error fault => .error (text, fault)

end QueryOutline.Defaults
