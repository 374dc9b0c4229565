import TemplateRender.Format.Formatters
import TemplateRender.Text.Quoted

/-!
Formatters besides the standard ones, one or two for each kind of value.
-/
namespace TemplateRender.Stock

/-- A number in base sixteen, padded with zeros to a width. -/
def hexText (width n : Nat) : String :=
  let digits := Text.hexDigits n
  String.ofList (List.replicate (width - digits.length) '0') ++ digits

def yesNo (b : Bool) : String := if b then "yes" else "no"

def angled (n : Int64) : String := "<" ++ Formatters.integerText n ++ ">"

/-- The bits of a double; every NaN reads the same. -/
def doubleBits (d : Double) : String := if d.isNaN then "nan" else hexText 16 d.bits.toNat

def embraced (text : String) : String := "\x7b" ++ text ++ "\x7d"

/-- The bytes themselves, after the name of the encoding. -/
def hexDump (data : List UInt8) (encoding : TextEncoding) : Option String :=
  some (encoding.name ++ ":" ++ String.join (data.map fun b => hexText 2 b.toNat))

def noText (_ : List UInt8) (_ : TextEncoding) : Option String := none

def barred (items : List String) : String := "|".intercalate items

def equations (entries : Entries String) : String :=
  String.join (entries.map fun (key, text) => key ++ "=" ++ text ++ ";")

end TemplateRender.Stock
