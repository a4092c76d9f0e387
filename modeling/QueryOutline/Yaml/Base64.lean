/-!
Bytes written in base 64. Characters outside the alphabet are skipped, and padding
ends the text once it completes a group of four.
-/

namespace QueryOutline.Yaml.Base64

def digit? (c : Char) : Option Nat :=
  if 'A' ≤ c && c ≤ 'Z' then some (c.toNat - 65)
  else if 'a' ≤ c && c ≤ 'z' then some (c.toNat - 71)
  else if c.isDigit then some (c.toNat + 4)
  else if c = '+' then some 62
  else if c = '/' then some 63
  else none

def groupBytes (digits : List Nat) : List UInt8 :=
  match digits with
  | [a, b] => [(a * 4 + b / 16).toUInt8]
  | [a, b, c] => [(a * 4 + b / 16).toUInt8, (b % 16 * 16 + c / 4).toUInt8]
  | [a, b, c, d] =>
      [(a * 4 + b / 16).toUInt8, (b % 16 * 16 + c / 4).toUInt8, (c % 4 * 64 + d).toUInt8]
  | _ => []

/-- Decode from inside a group, given its digits so far and the padding seen since
the last of them. -/
def decodeFrom (group : List Nat) (pads : Nat) : List Char → Option (List UInt8)
  | [] => if group.isEmpty then some [] else none
  | c :: cs =>
      if c = '=' then
        if 2 ≤ group.length && 4 ≤ group.length + pads + 1 then some (groupBytes group)
        else decodeFrom group (if 2 ≤ group.length then pads + 1 else pads) cs
      else match digit? c with
        | none => decodeFrom group pads cs
        | some d =>
            let longer := group ++ [d]
            if longer.length = 4 then (decodeFrom [] 0 cs).map (groupBytes longer ++ ·)
            else decodeFrom longer 0 cs

/-- The bytes of a text, which has to be plain ASCII. -/
def decode? (cs : List Char) : Option (List UInt8) :=
  if cs.all fun c => c.toNat < 0x80 then decodeFrom [] 0 cs else none

end QueryOutline.Yaml.Base64
