/-!
Escape sequences that would style text on a terminal: an escape character and an
opening bracket, parameters, intermediate characters, and one final character.
-/

namespace QueryOutline.Text

def isParameter (c : Char) : Bool :=
  0x30 ≤ c.toNat && c.toNat ≤ 0x3F

def isIntermediate (c : Char) : Bool :=
  0x20 ≤ c.toNat && c.toNat ≤ 0x2F

def isFinal (c : Char) : Bool :=
  0x40 ≤ c.toNat && c.toNat ≤ 0x7E

/-- The length of the sequence behind its escape character. -/
def sequenceLength? : List Char → Option Nat
  | '[' :: cs =>
      let parameters := cs.takeWhile isParameter
      let rest := cs.dropWhile isParameter
      let intermediates := rest.takeWhile isIntermediate
      if (rest.dropWhile isIntermediate).head?.any isFinal then
        some (parameters.length + intermediates.length + 2)
      else none
  | _ => none

/-- Drop escape sequences, after a number of characters that belong to one. -/
def dropSequences : Nat → List Char → List Char
  | _, [] => []
  | skipped + 1, _ :: cs => dropSequences skipped cs
  | 0, c :: cs =>
      match if c.toNat = 0x1B then sequenceLength? cs else none with
      | some length => dropSequences length cs
      | none => c :: dropSequences 0 cs

def withoutSequences (s : String) : String :=
  String.ofList (dropSequences 0 s.toList)

end QueryOutline.Text
