import TemplateRender.Encoding.Utf8

/-!
UTF-16: a scalar value below 2 ^ 16 is one unit, and any other a high and a low surrogate with
ten bits each. A surrogate that is not part of such a pair stands for no text. The two byte
orders differ only in how a unit is made of two bytes.
-/
namespace TemplateRender.Encoding.Utf16

inductive ByteOrder where
  | little
  | big
deriving DecidableEq, Repr

def encodeChar (c : Char) : List Nat :=
  let n := c.toNat
  if n < 0x10000 then [n]
  else [0xD800 + (n - 0x10000) / 0x400, 0xDC00 + (n - 0x10000) % 0x400]

def isHigh (unit : Nat) : Bool := 0xD800 ≤ unit && unit < 0xDC00

def isLow (unit : Nat) : Bool := 0xDC00 ≤ unit && unit < 0xE000

def decodeUnits : List Nat → Option (List Char)
  | [] => some []
  | u :: rest =>
    if isHigh u then
      match rest with
      | [] => none
      | v :: rest =>
        if isLow v then do
          let c ← scalar? (0x10000 + (u - 0xD800) * 0x400 + (v - 0xDC00))
          let cs ← decodeUnits rest
          return c :: cs
        else none
    else do
      let c ← scalar? u
      let cs ← decodeUnits rest
      return c :: cs

def unitBytes (order : ByteOrder) (unit : Nat) : List UInt8 :=
  match order with
  | .little => [UInt8.ofNat (unit % 0x100), UInt8.ofNat (unit / 0x100)]
  | .big => [UInt8.ofNat (unit / 0x100), UInt8.ofNat (unit % 0x100)]

def unitOf (order : ByteOrder) (a b : UInt8) : Nat :=
  match order with
  | .little => b.toNat * 0x100 + a.toNat
  | .big => a.toNat * 0x100 + b.toNat

/-- The units of a byte sequence, or none if its length is odd. -/
def units? (order : ByteOrder) : List UInt8 → Option (List Nat)
  | [] => some []
  | [_] => none
  | a :: b :: rest => (units? order rest).map (unitOf order a b :: ·)

def encode (order : ByteOrder) (cs : List Char) : List UInt8 :=
  (cs.flatMap encodeChar).flatMap (unitBytes order)

def decode (order : ByteOrder) (bytes : List UInt8) : Option (List Char) :=
  (units? order bytes).bind decodeUnits

end TemplateRender.Encoding.Utf16
