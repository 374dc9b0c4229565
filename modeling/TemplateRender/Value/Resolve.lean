import TemplateRender.Value.Basic

/-!
Two ways to look behind lazy values and slots. Resolving touches only what is promised to be
pure and also rebuilds arrays and maps; equality uses it. Forcing runs whatever is in the way
until a settled value appears, but does not enter containers; conditions and paths use it.
-/
namespace TemplateRender.Value

/-- Runs a lazy value once. -/
def call? : Value → RunM (Option Value)
  | lazy task compute => do
    let before ← record (.ran task)
    return some (compute before)
  | _ => return none

mutual

/-- A value that is not invariant stays as it is. Otherwise a lazy value runs and its result is
resolved in turn, a present slot gives what it holds, and the elements of a container are
resolved. -/
def resolve : Value → RunM Value
  | array items =>
    if itemsInvariant items then return array (← resolveItems items) else return array items
  | map entries =>
    if entriesInvariant entries then return map (← resolveEntries entries) else return map entries
  | present inner declared => return if inner.isInvariant then inner else present inner declared
  | lazy task compute =>
    if task.invariant then do
      let before ← record (.ran task)
      (compute before).resolve
    else return lazy task compute
  | v => return v

def resolveItems : List Value → RunM (List Value)
  | [] => return []
  | v :: rest => do
    let v ← v.resolve
    return v :: (← resolveItems rest)

def resolveEntries : Entries Value → RunM (Entries Value)
  | [] => return []
  | (key, v) :: rest => do
    let v ← v.resolve
    return (key, v) :: (← resolveEntries rest)

end

section Steps

variable {history : History}

theorem resolve_of_not_invariant {v : Value} (h : v.isInvariant = false) :
    v.resolve history = (v, history) := by
  cases v with
  | array | map | present | lazy =>
    rw [isInvariant] at h
    simp [resolve, h]
  | _ => cases h

theorem resolve_array {items : List Value} (h : (array items).isInvariant = true) :
    (array items).resolve history =
      (array (resolveItems items history).1, (resolveItems items history).2) := by
  rw [isInvariant] at h
  rw [resolve, if_pos h]
  rfl

theorem resolve_map {entries : Entries Value} (h : (map entries).isInvariant = true) :
    (map entries).resolve history =
      (map (resolveEntries entries history).1, (resolveEntries entries history).2) := by
  rw [isInvariant] at h
  rw [resolve, if_pos h]
  rfl

theorem resolve_present {inner : Value} {declared : ValueType}
    (h : (present inner declared).isInvariant = true) :
    (present inner declared).resolve history = (inner, history) := by
  rw [isInvariant] at h
  rw [resolve, if_pos h]
  rfl

theorem resolve_lazy {task : Task} {compute : History → Value}
    (h : (lazy task compute).isInvariant = true) :
    (lazy task compute).resolve history = (compute history).resolve (.ran task :: history) := by
  rw [isInvariant] at h
  rw [resolve, if_pos h]
  rfl

end Steps

/-- What output sees: lazy values run and slots are opened until something else remains. -/
def forced : Value → RunM Value
  | present inner _ => inner.forced
  | lazy task compute => do
    let before ← record (.ran task)
    (compute before).forced
  | v => return v

/-- A condition holds for `true` and for everything that is neither a truth value nor nil. -/
def isTruthy (v : Value) : RunM Bool := do
  match ← v.forced with
  | bool b => return b
  | settled => return !settled.isNil

end TemplateRender.Value
