import TemplateRender.Double.Basic
import TemplateRender.Entries
import TemplateRender.History

/-!
Values that templates can see. Besides scalars, arrays and maps there are optional slots, which
are present or nil and report a declared type, and lazy values, whose content is computed when
it is asked for. What a lazy value computes may depend on everything that has happened before.
-/
namespace TemplateRender

inductive Value where
  | bool (b : Bool)
  | int (n : Int64)
  | double (d : Double)
  | str (text : String)
  | bytes (data : List UInt8)
  | array (items : List Value)
  | map (entries : List (String × Value))
  /-- An absent slot. -/
  | nil (declared : ValueType)
  /-- A slot that holds a value. -/
  | present (inner : Value) (declared : ValueType)
  | lazy (task : Task) (compute : History → Value)

/-- The names that a template can refer to. -/
abbrev Context := Entries Value

namespace Value

/-- A nil of no known type. -/
def trueNil : Value := nil .void

/-- A lazy value that always answers `v`. -/
def ofResult (task : Task) (v : Value) : Value := lazy task fun _ => v

/-- A lazy value that answers `results` one after another and then the last of them again and
again. A single answer needs no count of the runs. -/
def ofResults (task : Task) : List Value → Value
  | [v] => ofResult task v
  | results => lazy task fun history =>
    (results[min (history.runs task) (results.length - 1)]?).getD trueNil

/-- The type that a value reports, which for slots and lazy values is the declared one. -/
def type : Value → ValueType
  | bool _ => .bool
  | int _ => .int
  | double _ => .double
  | str _ => .string
  | bytes _ => .bytes
  | array _ => .array
  | map _ => .map
  | nil declared => declared
  | present _ declared => declared
  | lazy task _ => task.returns

def typeName (v : Value) : String := v.type.name

def isNil : Value → Bool
  | nil _ => true
  | _ => false

def isLazy : Value → Bool
  | lazy _ _ => true
  | _ => false

/-- A lazy value or a present slot: there is another value to be had behind it. -/
def isWrapped : Value → Bool
  | present _ _ => true
  | lazy _ _ => true
  | _ => false

mutual

/-- Every computation that can be seen in the value without running one is promised to be
pure. -/
def isInvariant : Value → Bool
  | array items => itemsInvariant items
  | map entries => entriesInvariant entries
  | present inner _ => inner.isInvariant
  | lazy task _ => task.invariant
  | _ => true

def itemsInvariant : List Value → Bool
  | [] => true
  | v :: rest => v.isInvariant && itemsInvariant rest

def entriesInvariant : Entries Value → Bool
  | [] => true
  | (_, v) :: rest => v.isInvariant && entriesInvariant rest

end

theorem itemsInvariant_iff (items : List Value) :
    itemsInvariant items = true ↔ ∀ v ∈ items, v.isInvariant = true := by
  induction items with
  | nil => simp [itemsInvariant]
  | cons v rest ih => simp [itemsInvariant, ih]

theorem entriesInvariant_iff (entries : Entries Value) :
    entriesInvariant entries = true ↔ ∀ pair ∈ entries, pair.2.isInvariant = true := by
  induction entries with
  | nil => simp [entriesInvariant]
  | cons pair rest ih => simp [entriesInvariant, ih]

def asBool? : Value → Option Bool
  | bool b => some b
  | _ => none

def asInt? : Value → Option Int64
  | int n => some n
  | _ => none

def asDouble? : Value → Option Double
  | double d => some d
  | _ => none

def asStr? : Value → Option String
  | str text => some text
  | _ => none

def asBytes? : Value → Option (List UInt8)
  | bytes data => some data
  | _ => none

def asArray? : Value → Option (List Value)
  | array items => some items
  | _ => none

def asMap? : Value → Option (Entries Value)
  | map entries => some entries
  | _ => none

/-- Puts a value into a slot that declares its type. A slot stays as it is. -/
def wrap : Value → Value
  | nil declared => nil declared
  | present inner declared => present inner declared
  | v => present v v.type

/-- What a present slot holds; anything else stays as it is. -/
def unwrap : Value → Value
  | present inner _ => inner
  | v => v

end Value

end TemplateRender
