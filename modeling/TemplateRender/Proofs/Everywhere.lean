import TemplateRender.Value.Depth

/-!
Conditions on a value and on everything behind it: what it holds, what its lazy values may
compute, and so on without end. The conditions themselves look at one value at a time. Main
statement: resolving keeps a condition that asks of containers at most about their keys
(`Everywhere.resolve`). Forcing keeps every condition (`Everywhere.forced`).
-/
namespace TemplateRender.Value

/-- The condition holds of the value and of every value behind it. -/
inductive Everywhere (P : Value → Prop) : Value → Prop where
  | intro {v : Value} (here : P v) (parts : ∀ p, Part p v → Everywhere P p) : Everywhere P v

namespace Everywhere

variable {P Q : Value → Prop}

theorem here {v : Value} (h : Everywhere P v) : P v := by
  cases h with
  | intro here _ => exact here

theorem part {p v : Value} (h : Everywhere P v) (hp : Part p v) : Everywhere P p := by
  cases h with
  | intro _ parts => exact parts p hp

theorem item {items : List Value} (h : Everywhere P (array items)) {v : Value} (hv : v ∈ items) :
    Everywhere P v := h.part (.item hv)

theorem entry {entries : Entries Value} (h : Everywhere P (map entries)) {key : String} {v : Value}
    (hv : (key, v) ∈ entries) : Everywhere P v := h.part (.entry hv)

theorem of_getElem? {items : List Value} (h : Everywhere P (array items)) {i : Nat} {v : Value}
    (hv : items[i]? = some v) : Everywhere P v := h.item (List.mem_of_getElem? hv)

theorem of_get? {entries : Entries Value} (h : Everywhere P (map entries)) {key : String}
    {v : Value} (hv : Entries.get? entries key = some v) : Everywhere P v :=
  h.entry (Entries.mem_of_get? hv)

theorem inner {v : Value} {declared : ValueType} (h : Everywhere P (present v declared)) :
    Everywhere P v := h.part (.inner v declared)

theorem result {task : Task} {compute : History → Value} (h : Everywhere P (lazy task compute))
    (history : History) : Everywhere P (compute history) := h.part (.result task compute history)

theorem imp (hPQ : ∀ v, P v → Q v) {v : Value} (h : Everywhere P v) : Everywhere Q v := by
  induction h with
  | intro here _ ih => exact .intro (hPQ _ here) ih

theorem trivially (v : Value) : Everywhere (fun _ => True) v := by
  induction part_acc v with
  | intro v _ ih => exact .intro trivial ih

end Everywhere

section Kinds

variable {P : Value → Prop}

theorem everywhere_array_iff {items : List Value} :
    Everywhere P (array items) ↔ P (array items) ∧ ∀ v ∈ items, Everywhere P v := by
  constructor
  · exact fun h => ⟨h.here, fun v hv => h.item hv⟩
  · rintro ⟨here, hitems⟩
    refine .intro here fun p hp => ?_
    cases hp with
    | item hmem => exact hitems p hmem

theorem everywhere_map_iff {entries : Entries Value} :
    Everywhere P (map entries) ↔
      P (map entries) ∧ ∀ key v, (key, v) ∈ entries → Everywhere P v := by
  constructor
  · exact fun h => ⟨h.here, fun key v hv => h.entry hv⟩
  · rintro ⟨here, hentries⟩
    refine .intro here fun p hp => ?_
    cases hp with
    | entry hmem => exact hentries _ p hmem

theorem everywhere_present_iff {inner : Value} {declared : ValueType} :
    Everywhere P (present inner declared) ↔ P (present inner declared) ∧ Everywhere P inner := by
  constructor
  · exact fun h => ⟨h.here, h.inner⟩
  · rintro ⟨here, hinner⟩
    refine .intro here fun p hp => ?_
    cases hp
    exact hinner

theorem everywhere_lazy_iff {task : Task} {compute : History → Value} :
    Everywhere P (lazy task compute) ↔
      P (lazy task compute) ∧ ∀ history, Everywhere P (compute history) := by
  constructor
  · exact fun h => ⟨h.here, h.result⟩
  · rintro ⟨here, hresult⟩
    refine .intro here fun p hp => ?_
    cases hp with
    | result _ _ history => exact hresult history

/-- Scalars and nils have nothing behind them. -/
theorem everywhere_of_no_part {v : Value} (here : P v) (h : ∀ p, ¬Part p v) : Everywhere P v :=
  .intro here fun p hp => absurd hp (h p)

theorem everywhere_bytes_iff {data : List UInt8} :
    Everywhere P (bytes data) ↔ P (bytes data) := by
  refine ⟨Everywhere.here, fun here => .intro here fun p hp => ?_⟩
  cases hp

theorem everywhere_nil_iff {type : ValueType} : Everywhere P (nil type) ↔ P (nil type) := by
  refine ⟨Everywhere.here, fun here => .intro here fun p hp => ?_⟩
  cases hp

end Kinds

/-- A lazy value answers the same on every run. -/
def Steady : Value → Prop
  | lazy _ compute => ∀ before after, compute before = compute after
  | _ => True

/-- A lazy value is promised to be pure. -/
def Promised : Value → Prop
  | lazy task _ => task.invariant = true
  | _ => True

/-- A lazy value or a present slot declares the type of what it holds. -/
def Truthful : Value → Prop
  | present inner declared => declared = inner.type
  | lazy task compute => ∀ history, task.returns = (compute history).type
  | _ => True

/-- A lazy value does not answer with another lazy value. -/
def Settling : Value → Prop
  | lazy _ compute => ∀ history, (compute history).isLazy = false
  | _ => True

/-- A lazy value runs a task of a given kind. -/
def RunsOf (kind : Task → Bool) : Value → Prop
  | lazy task _ => kind task = true
  | _ => True

/-- The keys of a map are distinct, as they are in every map built by insertion. -/
def DistinctKeys : Value → Prop
  | map entries => Entries.Distinct entries
  | _ => True

theorem isInvariant_of_promised {v : Value} (h : Everywhere Promised v) : v.isInvariant = true := by
  induction h with
  | @intro v here _ ih =>
    cases v with
    | array items =>
      rw [isInvariant, itemsInvariant_iff]
      exact fun v hv => ih v (.item hv)
    | map entries =>
      rw [isInvariant, entriesInvariant_iff]
      exact fun pair hpair => ih pair.2 (.entry hpair)
    | present inner declared => exact ih inner (.inner inner declared)
    | lazy task compute => exact here
    | _ => rfl

/-- A condition that asks nothing of an array, and of a map nothing but its keys. -/
structure ContentBlind (P : Value → Prop) : Prop where
  array (items : List Value) : P (array items)
  map {xs ys : Entries Value} : Entries.keys xs = Entries.keys ys → P (map xs) → P (map ys)

theorem contentBlind_steady : ContentBlind Steady := ⟨fun _ => trivial, fun _ _ => trivial⟩

theorem contentBlind_settling : ContentBlind Settling := ⟨fun _ => trivial, fun _ _ => trivial⟩

theorem keys_resolveEntries (entries : Entries Value) (history : History) :
    Entries.keys (resolveEntries entries history).1 = Entries.keys entries := by
  induction entries generalizing history with
  | nil => rfl
  | cons pair rest ih => exact congrArg (pair.1 :: ·) (ih _)

mutual

theorem Everywhere.resolve {P : Value → Prop} (hP : ContentBlind P) : ∀ {v : Value},
    Everywhere P v → ∀ history, Everywhere P (v.resolve history).1
  | array items, h, history => by
    unfold Value.resolve
    split
    · exact everywhere_array_iff.2
        ⟨hP.array _, everywhere_resolveItems hP (fun v hv => h.item hv) history⟩
    · exact h
  | map entries, h, history => by
    unfold Value.resolve
    split
    · exact everywhere_map_iff.2
        ⟨hP.map (keys_resolveEntries entries history).symm h.here,
          everywhere_resolveEntries hP (fun key v hv => h.entry hv) history⟩
    · exact h
  | present inner declared, h, history => by
    unfold Value.resolve
    simp only [RunM.pure_apply]
    split
    · exact h.inner
    · exact h
  | lazy task compute, h, history => by
    unfold Value.resolve
    split
    · exact Everywhere.resolve hP (h.result history) (.ran task :: history)
    · exact h
  | bool _, h, _ => h
  | int _, h, _ => h
  | double _, h, _ => h
  | str _, h, _ => h
  | bytes _, h, _ => h
  | nil _, h, _ => h

theorem everywhere_resolveItems {P : Value → Prop} (hP : ContentBlind P) : ∀ {items : List Value},
    (∀ v ∈ items, Everywhere P v) → ∀ history, ∀ v ∈ (resolveItems items history).1, Everywhere P v
  | [], _, _, v, hv => by simp [resolveItems] at hv
  | w :: rest, h, history, v, hv => by
    rcases List.mem_cons.1 hv with rfl | hmem
    · exact Everywhere.resolve hP (h w (List.mem_cons_self ..)) history
    · exact everywhere_resolveItems hP (fun u hu => h u (List.mem_cons_of_mem _ hu)) _ v hmem

theorem everywhere_resolveEntries {P : Value → Prop} (hP : ContentBlind P) :
    ∀ {entries : Entries Value}, (∀ key v, (key, v) ∈ entries → Everywhere P v) →
      ∀ history key v, (key, v) ∈ (resolveEntries entries history).1 → Everywhere P v
  | [], _, _, key, v, hv => by simp [resolveEntries] at hv
  | (k, w) :: rest, h, history, key, v, hv => by
    rcases List.mem_cons.1 hv with heq | hmem
    · obtain ⟨rfl, rfl⟩ := Prod.mk.inj heq
      exact Everywhere.resolve hP (h key w (List.mem_cons_self ..)) history
    · exact everywhere_resolveEntries hP (fun k u hu => h k u (List.mem_cons_of_mem _ hu)) _ key v
        hmem

end

/-- Forcing only goes inwards, so it keeps whatever holds of everything behind the value. -/
theorem Everywhere.forced {P : Value → Prop} : ∀ {v : Value}, Everywhere P v → ∀ history,
    Everywhere P (v.forced history).1
  | present _ _, h, history => Everywhere.forced h.inner history
  | lazy task _, h, history => Everywhere.forced (h.result history) (.ran task :: history)
  | array _, h, _ => h
  | map _, h, _ => h
  | bool _, h, _ => h
  | int _, h, _ => h
  | double _, h, _ => h
  | str _, h, _ => h
  | bytes _, h, _ => h
  | nil _, h, _ => h

/-- Where answers never change, neither does what forcing gives. -/
theorem forced_steady : ∀ {v : Value}, Everywhere Steady v → ∀ history other,
    (v.forced history).1 = (v.forced other).1
  | present _ _, h, history, other => forced_steady h.inner history other
  | lazy task compute, h, history, other => by
    have hsame := forced_steady (h.result history) (.ran task :: history) (.ran task :: other)
    simp only [forced, RunM.bind_apply, record_apply]
    rw [hsame, h.here history other]
  | array _, _, _, _ => rfl
  | map _, _, _, _ => rfl
  | bool _, _, _, _ => rfl
  | int _, _, _, _ => rfl
  | double _, _, _, _ => rfl
  | str _, _, _, _ => rfl
  | bytes _, _, _, _ => rfl
  | nil _, _, _, _ => rfl

end TemplateRender.Value
