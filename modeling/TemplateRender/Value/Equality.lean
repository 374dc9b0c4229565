import TemplateRender.Value.Depth

/-!
Equality of values. It is strict about types and never runs a computation that is not promised
to be pure: a side that holds one is equal to nothing. If a side is a lazy value or a present
slot, both sides are resolved and compared again; two such sides must also declare the same
type. Nil equals nil whatever the declared types, and arrays and maps compare their elements.
The recursion follows `resolve`, so it is justified by the order of depth.
-/
namespace TemplateRender.Value

/-- Compares two lists position by position and stops at the first difference. The comparison
is told that its arguments are members, which is what makes it less deep. -/
def allPairs : (xs ys : List Value) →
    ((x : Value) → x ∈ xs → (y : Value) → y ∈ ys → RunM Bool) → RunM Bool
  | x :: xs, y :: ys, same => do
    if ← same x (List.mem_cons_self ..) y (List.mem_cons_self ..) then
      allPairs xs ys fun a ha b hb =>
        same a (List.mem_cons_of_mem _ ha) b (List.mem_cons_of_mem _ hb)
    else return false
  | _, _, _ => return true

/-- Looks up each key of the first map in the second and compares the two values, until a key is
missing or a comparison fails. -/
def allEntries (ys : Entries Value) : (xs : Entries Value) →
    ((x : Value) → (∃ key, (key, x) ∈ xs) → (y : Value) → (∃ key, (key, y) ∈ ys) → RunM Bool) →
      RunM Bool
  | [], _ => return true
  | (key, x) :: xs, same =>
    match h : Entries.get? ys key with
    | none => return false
    | some y => do
      if ← same x ⟨key, List.mem_cons_self ..⟩ y ⟨key, Entries.mem_of_get? h⟩ then
        allEntries ys xs fun a ha b hb =>
          same a (ha.elim fun k hk => ⟨k, List.mem_cons_of_mem _ hk⟩) b hb
      else return false

theorem allEntries_cons_none {ys : Entries Value} {key : String} {x : Value} {xs : Entries Value}
    {same : (a : Value) → (∃ k, (k, a) ∈ (key, x) :: xs) → (b : Value) → (∃ k, (k, b) ∈ ys) →
      RunM Bool}
    (h : Entries.get? ys key = none) : allEntries ys ((key, x) :: xs) same = pure false := by
  unfold allEntries
  split
  next => rfl
  next y hy => simp [h] at hy

theorem allEntries_cons_some {ys : Entries Value} {key : String} {x y : Value}
    {xs : Entries Value}
    {same : (a : Value) → (∃ k, (k, a) ∈ (key, x) :: xs) → (b : Value) → (∃ k, (k, b) ∈ ys) →
      RunM Bool}
    (h : Entries.get? ys key = some y) :
    allEntries ys ((key, x) :: xs) same = do
      if ← same x ⟨key, List.mem_cons_self ..⟩ y ⟨key, Entries.mem_of_get? h⟩ then
        allEntries ys xs fun a ha b hb =>
          same a (ha.elim fun k hk => ⟨k, List.mem_cons_of_mem _ hk⟩) b hb
      else return false := by
  conv => lhs; unfold allEntries
  split
  next hnone => simp [h] at hnone
  next z hz =>
    obtain rfl : y = z := Option.some.inj (h.symm.trans hz)
    rfl

/-- What two wrapped sides must agree on before either is resolved. -/
def sameDeclared (a b : Value) : Bool := !(a.isWrapped && b.isWrapped) || a.type == b.type

def equal (a b : Value) : RunM Bool := fun history =>
  if a.isWrapped || b.isWrapped then
    if a.isInvariant && b.isInvariant && sameDeclared a b then
      let left := a.resolve history
      let right := b.resolve left.2
      equal left.1 right.1 right.2
    else (false, history)
  else
    match a, b with
    | nil _, nil _ => (true, history)
    | bool x, bool y => (x == y, history)
    | int x, int y => (x == y, history)
    | double x, double y => (x.equal y, history)
    | str x, str y => (x == y, history)
    | bytes x, bytes y => (x == y, history)
    | array xs, array ys =>
      if itemsInvariant xs && itemsInvariant ys && xs.length == ys.length then
        allPairs xs ys (fun x _ y _ => equal x y) history
      else (false, history)
    | map xs, map ys =>
      if entriesInvariant xs && entriesInvariant ys && xs.length == ys.length then
        allEntries ys xs (fun x _ y _ => equal x y) history
      else (false, history)
    | _, _ => (false, history)
termination_by (a, b)
decreasing_by
  · rename_i history hwrapped hinvariant
    refine ⟨atMost_resolve a history, atMost_resolve b left.2, ?_⟩
    simp only [Bool.and_eq_true, Bool.or_eq_true] at hwrapped hinvariant
    rcases hwrapped with h | h
    · exact Or.inl (shallower_resolve a history h hinvariant.1.1)
    · exact Or.inr (shallower_resolve b left.2 h hinvariant.1.2)
  · rename_i hx hy _
    exact ⟨atMost_of_part (.item hx), atMost_of_part (.item hy), Or.inl (Part.item hx).shallower⟩
  · rename_i hx hy _
    exact ⟨atMost_of_part (.entry hx.choose_spec), atMost_of_part (.entry hy.choose_spec),
      Or.inl (Part.entry hx.choose_spec).shallower⟩

theorem equal_of_wrapped {a b : Value} (h : (a.isWrapped || b.isWrapped) = true)
    (history : History) : a.equal b history =
      if a.isInvariant && b.isInvariant && sameDeclared a b then
        let left := a.resolve history
        let right := b.resolve left.2
        left.1.equal right.1 right.2
      else (false, history) := by
  rw [equal.eq_def, if_pos h]

theorem equal_array (xs ys : List Value) (history : History) :
    (array xs).equal (array ys) history =
      if itemsInvariant xs && itemsInvariant ys && xs.length == ys.length then
        allPairs xs ys (fun x _ y _ => equal x y) history
      else (false, history) := by
  rw [equal, if_neg (by simp [isWrapped])]

theorem equal_map (xs ys : Entries Value) (history : History) :
    (map xs).equal (map ys) history =
      if entriesInvariant xs && entriesInvariant ys && xs.length == ys.length then
        allEntries ys xs (fun x _ y _ => equal x y) history
      else (false, history) := by
  rw [equal, if_neg (by simp [isWrapped])]

theorem equal_of_not_invariant {a b : Value} (h : a.isInvariant = false ∨ b.isInvariant = false)
    (history : History) : a.equal b history = (false, history) := by
  fun_induction equal a b history with
  | case1 a b history _ hinvariant =>
    simp only [Bool.and_eq_true] at hinvariant
    simp [hinvariant.1.1, hinvariant.1.2] at h
  | case9 history xs ys hinvariant =>
    simp only [Bool.and_eq_true] at hinvariant
    simp [isInvariant, hinvariant.1.1, hinvariant.1.2] at h
  | case11 history xs ys hinvariant =>
    simp only [Bool.and_eq_true] at hinvariant
    simp [isInvariant, hinvariant.1.1, hinvariant.1.2] at h
  | case2 | case10 | case12 | case13 => rfl
  | _ => simp [isInvariant] at h

/-- Element by element, without asking first whether the whole list is invariant. -/
def equalItems (xs ys : List Value) : RunM Bool :=
  if xs.length == ys.length then allPairs xs ys fun x _ y _ => equal x y else return false

def equalEntries (xs ys : Entries Value) : RunM Bool :=
  if xs.length == ys.length then allEntries ys xs fun x _ y _ => equal x y else return false

/-- Compares what two texts, byte sequences, arrays or maps hold; no other values are compared
in this way. -/
def equalContents? : Value → Value → RunM (Option Bool)
  | str x, str y => return some (x == y)
  | bytes x, bytes y => return some (x == y)
  | array xs, array ys => some <$> equalItems xs ys
  | map xs, map ys => some <$> equalEntries xs ys
  | _, _ => return none

end TemplateRender.Value
