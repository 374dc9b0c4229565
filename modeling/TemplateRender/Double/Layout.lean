import TemplateRender.Double.Shortest

/-!
Written forms of a double. Which digits are written is settled by `shortest`; a layout settles
how they are set out: which numbers are written with an exponent, and whether an integral number
keeps a zero after the point.
-/
namespace TemplateRender.Double

structure Layout where
  /-- The least and the first too large decimal exponent written without an exponent mark, or
  none if all numbers are. -/
  positional : Option (Int × Int)
  pointZero : Bool

/-- All places are written out, and nothing follows an integral number. -/
def Layout.plain : Layout := ⟨none, false⟩

/-- A number below 0.0001 or of at least 10 ^ 16 has an exponent; the others show that they
are doubles. -/
def Layout.marked : Layout := ⟨some (-4, 16), true⟩

def zeros (n : Nat) : String := String.ofList (List.replicate n '0')

def signText (d : Double) : String := if d.isNegative then "-" else ""

/-- All places of a decimal number, with a point where it has a fractional part. -/
def Decimal.positional (d : Decimal) (pointZero : Bool) : String :=
  let digits := toString d.digits
  let places := (-d.exponent).toNat
  if places = 0 then
    digits ++ zeros d.exponent.toNat ++ (if pointZero then ".0" else "")
  else if digits.length ≤ places then
    "0." ++ zeros (places - digits.length) ++ digits
  else
    let cs := digits.toList
    String.ofList (cs.take (cs.length - places)) ++ "." ++
      String.ofList (cs.drop (cs.length - places))

/-- The exponent of the first digit. -/
def Decimal.lead (d : Decimal) : Int := d.exponent + (digitCount d.digits - 1 : Nat)

/-- One digit before the point, the rest after it, and the power of ten. -/
def Decimal.scientific (d : Decimal) : String :=
  let cs := (toString d.digits).toList
  let mantissa := match cs with
    | [] => ""
    | [c] => String.ofList [c]
    | c :: rest => String.ofList (c :: '.' :: rest)
  mantissa ++ "e" ++ toString d.lead

def Decimal.write (d : Decimal) (layout : Layout) : String :=
  match layout.positional with
  | none => d.positional layout.pointZero
  | some (least, stop) =>
    if least ≤ d.lead ∧ d.lead < stop then d.positional layout.pointZero else d.scientific

def write (d : Double) (layout : Layout) : String :=
  if d.isNaN then "NaN"
  else if !d.isFinite then d.signText ++ "inf"
  else if d.isZero then d.signText ++ "0" ++ (if layout.pointZero then ".0" else "")
  else d.signText ++ d.shortest.write layout

/-- An integral number of magnitude below 10 ^ 15 in full, with a zero after the point. -/
def integralText? (d : Double) : Option String :=
  if d.isIntegral && decide (d.truncate < Nat.pow 10 15) then
    some (d.signText ++ toString d.truncate ++ ".0")
  else none

end TemplateRender.Double
