import QueryOutline.Text.Utf8

/-!
Documents that are too large are cut behind the bytes that are allowed. A character that the
cut goes through is lost.
-/

namespace QueryOutline.CommandLine

def excerpt (limit : Nat) (text : String) : String :=
  let encoded := Text.encodeUtf8 text.toList
  if limit < encoded.length then String.ofList (Text.decodeTolerantly (encoded.take limit))
  else text

/-- The warning about a text that does not fit. -/
def cutNotice? (limit : Nat) (text : String) : Option String :=
  let size := (Text.encodeUtf8 text.toList).length
  if limit < size then
    some ("Document is " ++ toString size ++ " bytes; only the first " ++ toString limit ++
      " are parsed")
  else none

end QueryOutline.CommandLine
