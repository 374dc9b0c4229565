import TemplateRender.Value.Basic

/-!
Data of other types as values. An optional datum becomes a slot that declares the type of what it
holds; without one nothing is known of the type, so the slot is a nil of no known type. A slot
inside a slot is not built, since wrapping leaves slots alone.
-/
namespace TemplateRender

class ToValue (α : Type) where
  toValue : α → Value

export ToValue (toValue)

instance : ToValue Value := ⟨id⟩
instance : ToValue Bool := ⟨.bool⟩
instance : ToValue Int64 := ⟨.int⟩
instance : ToValue Int32 := ⟨fun n => .int n.toInt64⟩
instance : ToValue Double := ⟨.double⟩
instance : ToValue String := ⟨.str⟩
instance : ToValue (List UInt8) := ⟨.bytes⟩
instance : ToValue (List Value) := ⟨.array⟩
instance : ToValue (Entries Value) := ⟨.map⟩

/-- The greatest number that an integer value can hold. -/
def maxInt : Nat := 0x7fffffffffffffff

/-- A count, which saturates at the greatest integer value. -/
instance : ToValue Nat := ⟨fun n => .int (Int64.ofNat (min n maxInt))⟩

instance {α : Type} [ToValue α] : ToValue (Option α) where
  toValue
    | some a => (toValue a).wrap
    | none => .trueNil

end TemplateRender
