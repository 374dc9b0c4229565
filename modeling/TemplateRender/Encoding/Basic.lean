import TemplateRender.Encoding.Utf16

/-!
The encodings that turn byte values into text. Decoding is the inverse of the standard encoding:
it succeeds on exactly the byte sequences that encode a text, and then gives that text.
-/
namespace TemplateRender

inductive TextEncoding where
  | utf8
  /-- Seven bits; a larger byte is not text. -/
  | ascii
  /-- Each byte is the code point of the same value. -/
  | latin1
  | utf16le
  | utf16be
deriving DecidableEq, Repr

namespace TextEncoding

def name : TextEncoding → String
  | utf8 => "utf-8"
  | ascii => "ascii"
  | latin1 => "iso-8859-1"
  | utf16le => "utf-16le"
  | utf16be => "utf-16be"

/-- The characters of bytes that are code points below `limit`. -/
def decodeBelow (limit : Nat) : List UInt8 → Option (List Char)
  | [] => some []
  | b :: rest =>
    if b.toNat < limit then (decodeBelow limit rest).map (Char.ofNat b.toNat :: ·) else none

/-- One byte for each character, provided that all code points are below `limit`. -/
def encodeBelow (limit : Nat) (cs : List Char) : Option (List UInt8) :=
  if cs.all fun c => c.toNat < limit then some (cs.map fun c => UInt8.ofNat c.toNat) else none

def encodeChars (encoding : TextEncoding) (cs : List Char) : Option (List UInt8) :=
  match encoding with
  | utf8 => some (Encoding.Utf8.encode cs)
  | ascii => encodeBelow 0x80 cs
  | latin1 => encodeBelow 0x100 cs
  | utf16le => some (Encoding.Utf16.encode .little cs)
  | utf16be => some (Encoding.Utf16.encode .big cs)

def decodeChars (encoding : TextEncoding) (bytes : List UInt8) : Option (List Char) :=
  match encoding with
  | utf8 => Encoding.Utf8.decode bytes
  | ascii => decodeBelow 0x80 bytes
  | latin1 => decodeBelow 0x100 bytes
  | utf16le => Encoding.Utf16.decode .little bytes
  | utf16be => Encoding.Utf16.decode .big bytes

/-- The bytes that stand for a text, or none if the encoding lacks one of its characters. -/
def encode (encoding : TextEncoding) (text : String) : Option (List UInt8) :=
  encoding.encodeChars text.toList

/-- The text that the bytes stand for, or none if they are not valid in the encoding. -/
def decode (encoding : TextEncoding) (bytes : List UInt8) : Option String :=
  (encoding.decodeChars bytes).map String.ofList

end TextEncoding

end TemplateRender
