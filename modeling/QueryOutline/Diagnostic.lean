import QueryOutline.Grammar.Definition

/-!
Diagnostics. A document is never rejected; what is suspicious about it is
reported, each cause at most once and in a fixed order.
-/

namespace QueryOutline

inductive Diagnostic where
  | unterminatedString (position : Nat)
  | unbalancedBraces (balance : Int)
  | nestingTooDeep
  | skippedTokens (count first : Nat)
  | noDefinitions
  deriving DecidableEq, Repr

/-- The opening braces less the closing ones, and the most there were at once. -/
structure BraceCount where
  balance : Int := 0
  deepest : Int := 0
  deriving DecidableEq, Repr

namespace BraceCount

def step (b : BraceCount) (t : Token) : BraceCount :=
  if t = "\x7b" then ⟨b.balance + 1, max b.deepest (b.balance + 1)⟩
  else if t = "\x7d" then { b with balance := b.balance - 1 }
  else b

def ofTokens (ts : List Token) : BraceCount :=
  ts.foldl step {}

end BraceCount

namespace Diagnostic

def kind : Diagnostic → String
  | unterminatedString _ => "unterminated_string"
  | unbalancedBraces _ => "unbalanced_braces"
  | nestingTooDeep => "nesting_too_deep"
  | skippedTokens .. => "skipped_tokens"
  | noDefinitions => "no_definitions"

def signed (n : Int) : String :=
  if 0 ≤ n then "+" ++ toString n else toString n

def message : Diagnostic → String
  | unterminatedString _ => "String literal is not terminated"
  | unbalancedBraces balance => "Braces are unbalanced (" ++ signed balance ++ ")"
  | nestingTooDeep =>
      "Selections nested deeper than " ++ toString maxNestingDepth ++ " levels were collapsed"
  | skippedTokens count _ => "Skipped " ++ toString count ++ " token(s) outside any definition"
  | noDefinitions => "No operation or fragment definition found"

def position? : Diagnostic → Option Nat
  | unterminatedString position => some position
  | skippedTokens _ first => some first
  | _ => none

def ofLastToken (ts : List Token) : List Diagnostic :=
  match ts.getLast? with
  | some t => if Token.isUnterminated t then [unterminatedString (ts.length - 1)] else []
  | none => []

def ofBraces (b : BraceCount) : List Diagnostic :=
  (if b.balance ≠ 0 then [unbalancedBraces b.balance] else []) ++
    if (maxNestingDepth : Int) < b.deepest then [nestingTooDeep] else []

def ofSkipped : List Nat → List Diagnostic
  | [] => []
  | first :: others => [skippedTokens (others.length + 1) first]

/-- What there is to report about a text, its tokens, the number of definitions
in it and the positions that were skipped. -/
def collect (text : String) (ts : List Token) (definitions : Nat) (skipped : List Nat) :
    List Diagnostic :=
  ofLastToken ts ++ ofBraces (.ofTokens ts) ++ ofSkipped skipped ++
    if definitions = 0 && !Text.allBlank text then [noDefinitions] else []

end Diagnostic

end QueryOutline
