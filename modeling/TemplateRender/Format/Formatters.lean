import TemplateRender.Double.Layout
import TemplateRender.Encoding.Basic
import TemplateRender.Entries

/-!
How each kind of value is written to the output. A formatter is a plain function, and any of
them can be replaced. Containers are handed the texts of their elements.
-/
namespace TemplateRender

structure Formatters where
  boolean : Bool → String
  integer : Int64 → String
  double : Double → String
  string : String → String
  /-- None if the bytes stand for no text. -/
  bytes : List UInt8 → TextEncoding → Option String
  array : List String → String
  /-- Receives the texts by increasing key. -/
  map : Entries String → String
  nil : String

namespace Formatters

def booleanText (b : Bool) : String := if b then "true" else "false"

def integerText (n : Int64) : String := toString n.toInt

/-- All places are written out. Below 10 ^ 15 an integral number keeps a zero after the point. -/
def doubleText (d : Double) : String := d.integralText?.getD (d.write .plain)

def plainQuoted (text : String) : String := "\"" ++ text ++ "\""

def arrayText (items : List String) : String :=
  "[" ++ ", ".intercalate (items.map plainQuoted) ++ "]"

def mapText (entries : Entries String) : String :=
  "[" ++ ", ".intercalate (entries.map fun (key, text) => key ++ ": " ++ plainQuoted text) ++ "]"

def standard : Formatters where
  boolean := booleanText
  integer := integerText
  double := doubleText
  string := id
  bytes := fun data encoding => encoding.decode data
  array := arrayText
  map := mapText
  nil := ""

end Formatters

/-- The formatters of a render, and the encoding that its byte values are in. -/
structure FormatConfig where
  formatters : Formatters := .standard
  encoding : TextEncoding := .utf8

end TemplateRender
