/-!
UTF-8: each scalar value in the fewest bytes that hold it, the leading byte telling how many
follow. `decode` refuses a sequence that is cut off, longer than needed, or stands for a
surrogate or for a number beyond the last scalar value.
-/
namespace TemplateRender.Encoding

/-- The character with a given code point, if that is a Unicode scalar value. -/
def scalar? (n : Nat) : Option Char := if h : n.isValidChar then some (Char.ofNatAux n h) else none

namespace Utf8

def encodeChar (c : Char) : List UInt8 :=
  let n := c.toNat
  if n < 0x80 then [UInt8.ofNat n]
  else if n < 0x800 then [UInt8.ofNat (0xC0 + n / 0x40), UInt8.ofNat (0x80 + n % 0x40)]
  else if n < 0x10000 then
    [UInt8.ofNat (0xE0 + n / 0x1000), UInt8.ofNat (0x80 + n / 0x40 % 0x40),
      UInt8.ofNat (0x80 + n % 0x40)]
  else
    [UInt8.ofNat (0xF0 + n / 0x40000), UInt8.ofNat (0x80 + n / 0x1000 % 0x40),
      UInt8.ofNat (0x80 + n / 0x40 % 0x40), UInt8.ofNat (0x80 + n % 0x40)]

def encode (cs : List Char) : List UInt8 := cs.flatMap encodeChar

/-- The six bits of a continuation byte. -/
def continuation? (b : UInt8) : Option Nat :=
  if 0x80 ≤ b.toNat ∧ b.toNat < 0xC0 then some (b.toNat - 0x80) else none

/-- Puts the character `n` in front of the rest, provided that it needs a sequence of this
length, that is, `n` is at least `least`. -/
def accept (least n : Nat) (rest : Option (List Char)) : Option (List Char) :=
  if n < least then none
  else do
    let c ← scalar? n
    let cs ← rest
    return c :: cs

def decode : List UInt8 → Option (List Char)
  | [] => some []
  | a :: rest =>
    if a.toNat < 0x80 then accept 0 a.toNat (decode rest)
    else if a.toNat < 0xC0 then none
    else match rest with
    | [] => none
    | b :: rest =>
      match continuation? b with
      | none => none
      | some y =>
        if a.toNat < 0xE0 then accept 0x80 ((a.toNat - 0xC0) * 0x40 + y) (decode rest)
        else match rest with
        | [] => none
        | c :: rest =>
          match continuation? c with
          | none => none
          | some z =>
            if a.toNat < 0xF0 then
              accept 0x800 ((a.toNat - 0xE0) * 0x1000 + y * 0x40 + z) (decode rest)
            else match rest with
            | [] => none
            | d :: rest =>
              match continuation? d with
              | none => none
              | some w =>
                if a.toNat < 0xF8 then
                  accept 0x10000 ((a.toNat - 0xF0) * 0x40000 + y * 0x1000 + z * 0x40 + w)
                    (decode rest)
                else none

end Utf8

end TemplateRender.Encoding
