import TemplateRender.Value.Equality

/-!
Which computations a comparison may run. Resolving and comparing run invariant tasks only, even
when the result of an invariant task brings up values that were not to be seen before. A side
that holds a computation of another kind makes a comparison fail before anything runs.
-/
namespace TemplateRender

/-- The second history continues the first by runs of allowed tasks and by nothing else. -/
def RunsOnly (allowed : Task → Prop) (before after : History) : Prop :=
  ∃ tasks : List Task, after = tasks.map .ran ++ before ∧ ∀ task ∈ tasks, allowed task

namespace RunsOnly

variable {allowed : Task → Prop}

theorem refl (history : History) : RunsOnly allowed history history := ⟨[], rfl, by simp⟩

theorem run {task : Task} (h : allowed task) (history : History) :
    RunsOnly allowed history (.ran task :: history) := ⟨[task], rfl, by simpa using h⟩

theorem trans {first second third : History} (hleft : RunsOnly allowed first second)
    (hright : RunsOnly allowed second third) : RunsOnly allowed first third := by
  obtain ⟨early, rfl, hearly⟩ := hleft
  obtain ⟨late, rfl, hlate⟩ := hright
  refine ⟨late ++ early, by simp, fun task hmem => ?_⟩
  rcases List.mem_append.1 hmem with h | h
  · exact hlate task h
  · exact hearly task h

end RunsOnly

namespace Value

mutual

theorem resolve_runsOnly : ∀ (v : Value) (history : History),
    RunsOnly (·.invariant) history (v.resolve history).2
  | array items, history => by
    unfold resolve
    split
    · exact resolveItems_runsOnly items history
    · exact .refl history
  | map entries, history => by
    unfold resolve
    split
    · exact resolveEntries_runsOnly entries history
    · exact .refl history
  | lazy task compute, history => by
    unfold resolve
    split
    next hinvariant =>
      exact (RunsOnly.run hinvariant history).trans (resolve_runsOnly (compute history) _)
    next => exact .refl history
  | present _ _, history => .refl history
  | bool _, history => .refl history
  | int _, history => .refl history
  | double _, history => .refl history
  | str _, history => .refl history
  | bytes _, history => .refl history
  | nil _, history => .refl history

theorem resolveItems_runsOnly : ∀ (items : List Value) (history : History),
    RunsOnly (·.invariant) history (resolveItems items history).2
  | [], history => .refl history
  | v :: rest, history => (resolve_runsOnly v history).trans (resolveItems_runsOnly rest _)

theorem resolveEntries_runsOnly : ∀ (entries : Entries Value) (history : History),
    RunsOnly (·.invariant) history (resolveEntries entries history).2
  | [], history => .refl history
  | (_, v) :: rest, history => (resolve_runsOnly v history).trans (resolveEntries_runsOnly rest _)

end

theorem allPairs_runsOnly {allowed : Task → Prop} (xs ys : List Value)
    (same : (x : Value) → x ∈ xs → (y : Value) → y ∈ ys → RunM Bool)
    (hsame : ∀ x hx y hy history, RunsOnly allowed history (same x hx y hy history).2)
    (history : History) : RunsOnly allowed history (allPairs xs ys same history).2 := by
  induction xs generalizing ys history with
  | nil => exact .refl history
  | cons x xs ih =>
    cases ys with
    | nil => exact .refl history
    | cons y ys =>
      have hhead := hsame x (List.mem_cons_self ..) y (List.mem_cons_self ..) history
      simp only [allPairs, RunM.bind_apply]
      split
      · exact hhead.trans (ih ys _ (fun a ha b hb => hsame a _ b _) _)
      · exact hhead

theorem allEntries_runsOnly {allowed : Task → Prop} (ys xs : Entries Value)
    (same : (x : Value) → (∃ key, (key, x) ∈ xs) → (y : Value) → (∃ key, (key, y) ∈ ys) → RunM Bool)
    (hsame : ∀ x hx y hy history, RunsOnly allowed history (same x hx y hy history).2)
    (history : History) : RunsOnly allowed history (allEntries ys xs same history).2 := by
  induction xs generalizing history with
  | nil => exact .refl history
  | cons pair xs ih =>
    obtain ⟨key, x⟩ := pair
    cases hget : Entries.get? ys key with
    | none =>
      rw [allEntries_cons_none hget]
      exact .refl history
    | some y =>
      have hhead := hsame x ⟨key, List.mem_cons_self ..⟩ y ⟨key, Entries.mem_of_get? hget⟩ history
      rw [allEntries_cons_some hget, RunM.bind_apply]
      split
      · exact hhead.trans (ih _ (fun a ha b hb => hsame a _ b _) _)
      · exact hhead

theorem equal_runsOnly (a b : Value) (history : History) :
    RunsOnly (·.invariant) history (a.equal b history).2 := by
  fun_induction equal a b history with
  | case1 a b history _ _ left right ih =>
    exact ((resolve_runsOnly a history).trans (resolve_runsOnly b left.2)).trans ih
  | case9 history xs ys _ _ ih =>
    exact allPairs_runsOnly xs ys _ (fun x hx y hy => ih x hx y hy) history
  | case11 history xs ys _ _ ih =>
    exact allEntries_runsOnly ys xs _ (fun x hx y hy => ih x hx y hy) history
  | _ history => exact .refl _

theorem equalContents?_runsOnly (a b : Value) (history : History) :
    RunsOnly (·.invariant) history (equalContents? a b history).2 := by
  unfold equalContents?
  split
  case h_3 xs ys =>
    simp only [RunM.map_apply, equalItems]
    split
    · exact allPairs_runsOnly xs ys _ (fun x _ y _ => equal_runsOnly x y) history
    · exact .refl history
  case h_4 xs ys =>
    simp only [RunM.map_apply, equalEntries]
    split
    · exact allEntries_runsOnly ys xs _ (fun x _ y _ => equal_runsOnly x y) history
    · exact .refl history
  all_goals exact .refl history

/-- Comparing values, comparing what containers hold, and resolving run invariant tasks only. If a
side is not invariant, the values are unequal either way round and nothing runs. -/
theorem comparing_runs_invariant_tasks_only (a b : Value) (history : History) :
    RunsOnly (·.invariant) history (a.equal b history).2 ∧
      RunsOnly (·.invariant) history (equalContents? a b history).2 ∧
      RunsOnly (·.invariant) history (a.resolve history).2 ∧
      (a.isInvariant = false ∨ b.isInvariant = false →
        a.equal b history = (false, history) ∧ b.equal a history = (false, history)) :=
  ⟨equal_runsOnly a b history, equalContents?_runsOnly a b history, resolve_runsOnly a history,
    fun h => ⟨equal_of_not_invariant h history, equal_of_not_invariant h.symm history⟩⟩

/-- A computation that is not promised to be pure. -/
def guarded : Value :=
  lazy { serial := 0, label := "guarded", returns := .int, invariant := false } fun _ => int 1

/-- A computation that is promised to be pure but brings up one that is not. -/
def bringing : Value :=
  lazy { serial := 1, label := "bringing", returns := .array, invariant := true } fun _ =>
    array [guarded]

theorem comparing_guarded_runs_nothing :
    bringing.equal guarded [] = (false, []) ∧ guarded.equal bringing [] = (false, []) :=
  (comparing_runs_invariant_tasks_only bringing guarded []).2.2.2 (Or.inr rfl)

end Value

end TemplateRender
