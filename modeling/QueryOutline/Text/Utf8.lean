/-!
Texts as UTF-8 bytes: encoding, and two ways of decoding. One refuses overlong forms,
surrogates and everything beyond U+10FFFF; the other drops them, and what is incomplete, and
goes on.
-/

namespace QueryOutline.Text

def encodeUtf8 (cs : List Char) : List UInt8 :=
  cs.flatMap String.utf8EncodeChar

def continuation? (b : UInt8) : Option Nat :=
  if 0x80 ≤ b.toNat && b.toNat < 0xC0 then some (b.toNat - 0x80) else none

/-- A scalar value that is at least as large as its number of bytes requires. -/
def scalar? (least n : Nat) : Option Char :=
  if h : n.isValidChar then if least ≤ n then some (Char.ofNatAux n h) else none else none

def decodeUtf8 : List UInt8 → Option (List Char)
  | [] => some []
  | b₀ :: rest₀ =>
      let n := b₀.toNat
      if n < 0x80 then (decodeUtf8 rest₀).map (Char.ofNat n :: ·)
      else match rest₀ with
        | [] => none
        | b₁ :: rest₁ => do
            let x₁ ← continuation? b₁
            if 0xC0 ≤ n && n < 0xE0 then
              let c ← scalar? 0x80 ((n - 0xC0) * 0x40 + x₁)
              (decodeUtf8 rest₁).map (c :: ·)
            else match rest₁ with
              | [] => none
              | b₂ :: rest₂ => do
                  let x₂ ← continuation? b₂
                  if 0xE0 ≤ n && n < 0xF0 then
                    let c ← scalar? 0x800 (((n - 0xE0) * 0x40 + x₁) * 0x40 + x₂)
                    (decodeUtf8 rest₂).map (c :: ·)
                  else match rest₂ with
                    | [] => none
                    | b₃ :: rest₃ => do
                        let x₃ ← continuation? b₃
                        if 0xF0 ≤ n then
                          let c ← scalar? 0x10000
                            ((((n - 0xF0) * 0x40 + x₁) * 0x40 + x₂) * 0x40 + x₃)
                          (decodeUtf8 rest₃).map (c :: ·)
                        else none

/-- A character of which some bytes have been read. -/
structure BegunChar where
  /-- The bits that have been read. -/
  bits : Nat
  /-- The number of bytes that are still to come. -/
  owed : Nat
  /-- The range of the next byte. -/
  least : Nat := 0x80
  greatest : Nat := 0xBF
  deriving DecidableEq, Repr

namespace BegunChar

/-- What a first byte begins. Where the range of the second byte is narrower than usual, the
rest of it would give overlong forms, surrogates or numbers beyond all characters. -/
def ofFirst? (b : UInt8) : Option BegunChar :=
  let n := b.toNat
  if n < 0x80 then some { bits := n, owed := 0 }
  else if n < 0xC2 then none
  else if n < 0xE0 then some { bits := n - 0xC0, owed := 1 }
  else if n < 0xF0 then
    some { bits := n - 0xE0, owed := 2
           least := if n = 0xE0 then 0xA0 else 0x80
           greatest := if n = 0xED then 0x9F else 0xBF }
  else if n < 0xF5 then
    some { bits := n - 0xF0, owed := 3
           least := if n = 0xF0 then 0x90 else 0x80
           greatest := if n = 0xF4 then 0x8F else 0xBF }
  else none

def next? (p : BegunChar) (b : UInt8) : Option BegunChar :=
  if p.least ≤ b.toNat && b.toNat ≤ p.greatest then
    some { bits := p.bits * 0x40 + (b.toNat - 0x80), owed := p.owed - 1 }
  else none

end BegunChar

/-- The state of a tolerant decoding between two bytes. Characters are held latest first. -/
structure TolerantDecoding where
  found : List Char := []
  begun : Option BegunChar := none
  deriving DecidableEq, Repr

/-- A byte that a begun character cannot go on with drops what there is of that character, and
is looked at anew. -/
def TolerantDecoding.step (d : TolerantDecoding) (b : UInt8) : TolerantDecoding :=
  match (d.begun.bind (·.next? b)).or (BegunChar.ofFirst? b) with
  | none => { found := d.found }
  | some p =>
      if p.owed = 0 then { found := Char.ofNat p.bits :: d.found }
      else { found := d.found, begun := some p }

def decodeTolerantly (bs : List UInt8) : List Char :=
  (bs.foldl TolerantDecoding.step {}).found.reverse

end QueryOutline.Text
