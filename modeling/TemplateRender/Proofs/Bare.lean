import TemplateRender.Proofs.Entries
import TemplateRender.Proofs.Everywhere

/-!
Values with every layer taken off: a lazy value gives way to its answer and a present slot to what
it holds, at every depth. Where the answers of lazy values do not change, resolving takes off
some layers and so leaves the bare value as it is (`bare_resolve`); where declared types are
truthful, the bare value reports the same type (`type_bare`).
-/
namespace TemplateRender.Value

mutual

/-- The answer of a lazy value is that of a run before all others. -/
def bare : Value → Value
  | array items => array (bareItems items)
  | map entries => map (bareEntries entries)
  | present inner _ => inner.bare
  | lazy _ compute => (compute []).bare
  | v => v

def bareItems : List Value → List Value
  | [] => []
  | v :: rest => v.bare :: bareItems rest

def bareEntries : Entries Value → Entries Value
  | [] => []
  | (key, v) :: rest => (key, v.bare) :: bareEntries rest

end

theorem bareItems_eq_map (items : List Value) : bareItems items = items.map bare := by
  induction items with
  | nil => rfl
  | cons v rest ih => rw [bareItems, ih, List.map_cons]

theorem bareEntries_eq_map (entries : Entries Value) :
    bareEntries entries = entries.map fun pair => (pair.1, pair.2.bare) := by
  induction entries with
  | nil => rfl
  | cons pair rest ih => rw [bareEntries, ih, List.map_cons]

@[simp] theorem getElem?_bareItems (items : List Value) (i : Nat) :
    (bareItems items)[i]? = items[i]?.map bare := by
  rw [bareItems_eq_map, List.getElem?_map]

@[simp] theorem length_bareItems (items : List Value) :
    (bareItems items).length = items.length := by
  rw [bareItems_eq_map, List.length_map]

@[simp] theorem get?_bareEntries (entries : Entries Value) (key : String) :
    Entries.get? (bareEntries entries) key = (Entries.get? entries key).map bare := by
  rw [bareEntries_eq_map]
  exact Entries.get?_map (fun _ => bare) entries key

@[simp] theorem keys_bareEntries (entries : Entries Value) :
    Entries.keys (bareEntries entries) = Entries.keys entries := by
  simp [bareEntries_eq_map, Entries.keys]

/-- Only what has no layer on top is left in the bare value. -/
theorem Everywhere.bare_of {P Q : Value → Prop}
    (hPQ : ∀ v, v.isWrapped = false → Q v → P v.bare) {v : Value} (h : Everywhere Q v) :
    Everywhere P v.bare := by
  induction h with
  | @intro v here _ ih =>
    cases v with
    | array items =>
      have hhere := hPQ _ rfl here
      rw [Value.bare, bareItems_eq_map] at hhere ⊢
      refine everywhere_array_iff.2 ⟨hhere, fun w hw => ?_⟩
      obtain ⟨u, hu, rfl⟩ := List.mem_map.1 hw
      exact ih u (.item hu)
    | map entries =>
      have hhere := hPQ _ rfl here
      rw [Value.bare, bareEntries_eq_map] at hhere ⊢
      refine everywhere_map_iff.2 ⟨hhere, fun key w hw => ?_⟩
      obtain ⟨pair, hpair, heq⟩ := List.mem_map.1 hw
      obtain ⟨rfl, rfl⟩ := Prod.mk.inj heq
      exact ih pair.2 (.entry hpair)
    | present inner declared => exact ih inner (.inner inner declared)
    | lazy task compute => exact ih (compute []) (.result task compute [])
    | _ => exact everywhere_of_no_part (hPQ _ rfl here) nofun

/-- No layer is left, at any depth. -/
theorem everywhere_bare (v : Value) : Everywhere (fun w => w.isWrapped = false) v.bare := by
  refine (Everywhere.trivially v).bare_of fun v hv _ => ?_
  cases v with
  | present | lazy => cases hv
  | _ => rfl

/-- Taking off every layer keeps a condition that containers are blind to. -/
theorem Everywhere.bare {P : Value → Prop} (hP : ContentBlind P) {v : Value}
    (h : Everywhere P v) : Everywhere P v.bare := by
  refine h.bare_of fun v hv here => ?_
  cases v with
  | array items => exact hP.array _
  | map entries => exact hP.map (keys_bareEntries entries).symm here
  | present | lazy => cases hv
  | _ => exact here

theorem type_bare : ∀ {v : Value}, Everywhere Truthful v → v.bare.type = v.type
  | present _ _, h => (type_bare h.inner).trans (Eq.symm h.here)
  | lazy _ _, h => (type_bare (h.result [])).trans (h.here []).symm
  | array _, _ => rfl
  | map _, _ => rfl
  | bool _, _ => rfl
  | int _, _ => rfl
  | double _, _ => rfl
  | str _, _ => rfl
  | bytes _, _ => rfl
  | nil _, _ => rfl

mutual

theorem bare_resolve : ∀ {v : Value}, Everywhere Steady v → ∀ history,
    (v.resolve history).1.bare = v.bare
  | array items, h, history => by
    unfold resolve
    split
    · exact congrArg array (bareItems_resolveItems (fun v hv => h.item hv) history)
    · rfl
  | map entries, h, history => by
    unfold resolve
    split
    · exact congrArg map (bareEntries_resolveEntries (fun key v hv => h.entry hv) history)
    · rfl
  | present inner declared, _, history => by
    simp only [resolve, RunM.pure_apply]
    split <;> rfl
  | lazy task compute, h, history => by
    unfold resolve
    split
    · rw [bare, h.here [] history]
      exact bare_resolve (h.result history) _
    · rfl
  | bool _, _, _ => rfl
  | int _, _, _ => rfl
  | double _, _, _ => rfl
  | str _, _, _ => rfl
  | bytes _, _, _ => rfl
  | nil _, _, _ => rfl

theorem bareItems_resolveItems : ∀ {items : List Value}, (∀ v ∈ items, Everywhere Steady v) →
    ∀ history, bareItems (resolveItems items history).1 = bareItems items
  | [], _, _ => rfl
  | v :: rest, h, history => by
    have hhead := bare_resolve (h v (List.mem_cons_self ..)) history
    have htail := bareItems_resolveItems (fun w hw => h w (List.mem_cons_of_mem _ hw))
      (v.resolve history).2
    simp only [resolveItems, RunM.bind_apply, RunM.pure_apply, bareItems, hhead, htail]

theorem bareEntries_resolveEntries : ∀ {entries : Entries Value},
    (∀ key v, (key, v) ∈ entries → Everywhere Steady v) →
      ∀ history, bareEntries (resolveEntries entries history).1 = bareEntries entries
  | [], _, _ => rfl
  | (key, v) :: rest, h, history => by
    have hhead := bare_resolve (h key v (List.mem_cons_self ..)) history
    have htail := bareEntries_resolveEntries (fun k w hw => h k w (List.mem_cons_of_mem _ hw))
      (v.resolve history).2
    simp only [resolveEntries, RunM.bind_apply, RunM.pure_apply, bareEntries, hhead, htail]

end

end TemplateRender.Value
