/-!
Binary64 numbers, kept as their sixty-four bits: a sign, an eleven-bit exponent field and a
fifty-two-bit fraction. A finite number is plus or minus `significand * 2 ^ exponent`, so every
question about it is one about integers.
-/
namespace TemplateRender

structure Double where
  bits : UInt64
deriving DecidableEq, Repr

namespace Double

/-- The bit of the sign. -/
def signBit : Nat := 1 <<< 63

/-- The lowest bit of the exponent field, and the hidden leading bit of a significand. -/
def unitBit : Nat := 1 <<< 52

def isNegative (d : Double) : Bool := signBit ≤ d.bits.toNat

def exponentField (d : Double) : Nat := d.bits.toNat / unitBit % 2048

def fraction (d : Double) : Nat := d.bits.toNat % unitBit

def isFinite (d : Double) : Bool := d.exponentField != 2047

def isNaN (d : Double) : Bool := !d.isFinite && d.fraction != 0

def isZero (d : Double) : Bool := d.exponentField == 0 && d.fraction == 0

/-- Numbers with exponent field zero have no hidden leading bit. -/
def significand (d : Double) : Nat :=
  if d.exponentField = 0 then d.fraction else d.fraction + unitBit

def exponent (d : Double) : Int := (max d.exponentField 1 : Nat) - 1075

/-- The integer part of the magnitude of a finite number. -/
def truncate (d : Double) : Nat :=
  (d.significand <<< d.exponent.toNat) / (1 <<< (-d.exponent).toNat)

def isIntegral (d : Double) : Bool :=
  d.isFinite && (d.significand <<< d.exponent.toNat) % (1 <<< (-d.exponent).toNat) == 0

/-- Equality of numbers: the two zeros are equal and a NaN equals nothing. -/
def equal (a b : Double) : Bool :=
  !a.isNaN && !b.isNaN && (a == b || (a.isZero && b.isZero))

/-- Magnitude bits of the number nearest to `n`, which must not be zero. The significand keeps
the leading fifty-three bits of `n`; a half rounds to the even neighbour, and a carry out of the
significand moves into the exponent field by itself. -/
def nearestBits (n : Nat) : Nat :=
  let top := n.log2
  if top ≤ 52 then
    (top + 1023) * unitBit + (n <<< (52 - top) - unitBit)
  else
    let unit := 1 <<< (top - 52)
    let kept := n / unit
    let lost := n % unit
    let up := unit < 2 * lost || (unit == 2 * lost && kept % 2 == 1)
    (top + 1023) * unitBit + (kept + (if up then 1 else 0) - unitBit)

/-- The number nearest to an integer of at most 1023 bits. -/
def ofInt (n : Int) : Double :=
  if n = 0 then ⟨0⟩
  else ⟨UInt64.ofNat ((if n < 0 then signBit else 0) + nearestBits n.natAbs)⟩

end Double

end TemplateRender
