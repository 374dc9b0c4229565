import TemplateRender.Proofs.Segments

/-!
Looking up a path in two parts. A look-up leaves its last value as it is, and a longer path forces
that value before it goes on, so looking up two paths with a dot between them is looking up the
first, forcing what it leads to, and looking up the second in the map that appears (`lookup_dot`).
Where no map appears both ways give nil, and what ran until then is the same.
-/
namespace TemplateRender

namespace Path

/-- What a settled value leads to: a map is entered, and anything else leads to nil. -/
def enter (segment : String) (rest : List String) : Value → RunM Value
  | .map entries =>
    match Entries.get? entries segment with
    | some next => descend rest next
    | none => return .trueNil
  | _ => return .trueNil

theorem descend_cons (segment : String) (rest : List String) (current : Value) :
    descend (segment :: rest) current = current.forced >>= enter segment rest := by
  funext history
  simp only [descend, RunM.bind_apply]
  rcases current.forced history with ⟨settled, after⟩
  cases settled <;> rfl

theorem enter_trueNil (segment : String) (rest : List String) :
    (pure .trueNil >>= Value.forced) >>= enter segment rest = (pure .trueNil : RunM Value) := rfl

/-- What the first segments lead to is forced before the next one is looked up in it, whichever way
they end. -/
theorem descend_append (front : List String) (segment : String) (rest : List String)
    (current : Value) :
    descend (front ++ segment :: rest) current =
      (descend front current >>= Value.forced) >>= enter segment rest := by
  induction front generalizing current with
  | nil => exact descend_cons segment rest current
  | cons head front ih =>
    rw [List.cons_append, descend_cons, descend_cons]
    funext history
    simp only [RunM.bind_apply]
    rcases current.forced history with ⟨settled, after⟩
    cases settled with
    | map entries =>
      simp only [enter]
      cases Entries.get? entries head with
      | none => exact congrFun (enter_trueNil segment rest).symm after
      | some next => exact congrFun (ih next) after
    | _ => exact congrFun (enter_trueNil segment rest).symm after

end Path

/-- A path of two parts leads where the second part leads in the map that the first one leads to,
or to nil if that is no map. The same tasks run in the same order. -/
theorem Context.lookup_dot (data : Context) (p q : String) :
    data.lookup (p ++ "." ++ q) = do
      match ← (← data.lookup p).forced with
      | .map entries => Context.lookup entries q
      | _ => return .trueNil := by
  have hsplit : data.lookup (p ++ "." ++ q) =
      (data.lookup p >>= Value.forced) >>= Path.enter (Path.first q) (Path.others q) := by
    rw [Context.lookup, Context.lookup, Path.first_dot, Path.others_dot]
    cases Entries.get? data (Path.first p) with
    | none => exact (Path.enter_trueNil _ _).symm
    | some v => exact Path.descend_append (Path.others p) (Path.first q) (Path.others q) v
  rw [hsplit, bind_assoc]
  rfl

end TemplateRender
