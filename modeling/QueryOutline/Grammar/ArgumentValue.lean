import QueryOutline.Grammar.Rule

/-!
Argument values. A value is kept as text: its tokens are joined by single
blanks, and a dollar sign stays on its name.
-/

namespace QueryOutline

def bracketWeight (t : Token) : Int :=
  if t = "\x7b" || t = "[" then 1
  else if t = "\x7d" || t = "]" then -1
  else 0

/-- The tokens of a value and those after it. At depth zero a value ends before
a closing parenthesis and before the name of the next pair. -/
def splitValue (depth : Int) : List Token → List Token × List Token
  | [] => ([], [])
  | t :: ts =>
      let inner := depth + bracketWeight t
      if inner = 0 && (t == ")" || ts.head? == some ":") then ([], t :: ts)
      else
        let others := splitValue inner ts
        (t :: others.1, others.2)

theorem splitValue_append (depth : Int) (ts : List Token) :
    (splitValue depth ts).1 ++ (splitValue depth ts).2 = ts := by
  induction ts generalizing depth with
  | nil => rfl
  | cons t ts ih =>
      simp only [splitValue]
      split <;> simp [ih]

def valuePieces : List Token → List String
  | [] => []
  | [t] => [t]
  | t :: ts => if t = "$" then t :: valuePieces ts else t :: " " :: valuePieces ts

def joinValue (ts : List Token) : String :=
  Text.trim (String.join (valuePieces ts))

namespace Rule

def valueTokens : Rule (List Token) :=
  ⟨fun ts => let (parts, rest) := splitValue 0 ts; ⟨parts, rest⟩, fun ts =>
    ⟨(splitValue 0 ts).1, splitValue_append 0 ts⟩⟩

def value : Rule String := do
  return joinValue (← valueTokens)

end Rule

end QueryOutline
