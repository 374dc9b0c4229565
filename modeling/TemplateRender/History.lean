/-!
What a render has made happen so far. Running a deferred computation is an effect that callers
can see, and the answer of a computation may change from run to run. Both are captured by one
list of events: a run is recorded in it, and what a computation answers is a function of the
events before it. Two renders run the same computations in the same order exactly when they
extend the same history by the same events.
-/
namespace TemplateRender

/-- The concrete type of a value. `void` is declared by a nil of no known type. -/
inductive ValueType where
  | bool
  | string
  | int
  | double
  | bytes
  | array
  | map
  | void
deriving DecidableEq, Repr

def ValueType.name : ValueType → String
  | .bool => "bool"
  | .string => "string"
  | .int => "int"
  | .double => "double"
  | .bytes => "bytes"
  | .array => "array"
  | .map => "dictionary"
  | .void => "void"

/-- What is known of a deferred computation without running it. The serial number tells apart
computations of one label. An invariant task is promised to be pure, so equality may run it. -/
structure Task where
  serial : Nat
  label : String
  returns : ValueType
  invariant : Bool
deriving DecidableEq, Repr

inductive Event where
  /-- A deferred computation ran. -/
  | ran (task : Task)
  /-- A tag left a note. -/
  | noted (text : String)
deriving DecidableEq, Repr

def Event.label : Event → String
  | .ran task => task.label
  | .noted text => text

/-- Events, the latest first. -/
abbrev History := List Event

def History.runs (history : History) (task : Task) : Nat := history.count (.ran task)

/-- Labels of the events after the first `start`, in the order in which they happened. -/
def History.labelsFrom (history : History) (start : Nat) : List String :=
  ((history.take (history.length - start)).map Event.label).reverse

abbrev RunM := StateM History

namespace RunM

variable {α β : Type}

@[simp] theorem pure_apply (a : α) (history : History) :
    (pure a : RunM α) history = (a, history) := rfl

@[simp] theorem bind_apply (x : RunM α) (f : α → RunM β) (history : History) :
    (x >>= f) history = f (x history).1 (x history).2 := rfl

@[simp] theorem map_apply (f : α → β) (x : RunM α) (history : History) :
    (f <$> x) history = (f (x history).1, (x history).2) := rfl

end RunM

/-- Records an event and answers the history before it. -/
def record (event : Event) : RunM History := fun history => (history, event :: history)

@[simp] theorem record_apply (event : Event) (history : History) :
    record event history = (history, event :: history) := rfl

end TemplateRender
