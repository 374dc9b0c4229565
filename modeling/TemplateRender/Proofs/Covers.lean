import TemplateRender.Proofs.Bare
import TemplateRender.Proofs.Related

/-!
One value behind more layers than another. Slots on one side only have to declare the type of
what they hold, and lazy values on one side only have to run hidden tasks, which are left out when
histories are compared. Wherever a render looks at a value (its type, its text, what forcing
gives, whether a condition holds) the covering value and the covered one look the same.
-/
namespace TemplateRender

variable {hidden : Task → Bool}

/-- The events other than runs of hidden tasks. -/
def History.shown (hidden : Task → Bool) (history : History) : History :=
  history.filter fun
    | .ran task => !hidden task
    | .noted _ => true

/-- Equal histories, up to runs of hidden tasks. -/
def Pairing.upToRuns (hidden : Task → Bool) : Pairing where
  history left right := left.shown hidden = right.shown hidden
  released _ := False

open Pairing

theorem paired_record (event : Event) :
    RunM.Paired (upToRuns hidden) (upToRuns hidden).history (record event) (record event) := by
  intro left right hhistory
  have hshown : left.shown hidden = right.shown hidden := hhistory
  refine ⟨hhistory, ?_⟩
  simp only [record_apply, upToRuns, History.shown, List.filter_cons] at hshown ⊢
  rw [hshown]

theorem paired_of_hidden {α β : Type} {rel : α → β → Prop} {task : Task}
    (hhidden : hidden task = true) {f : History → RunM α} {y : RunM β}
    (h : ∀ before, RunM.Paired (upToRuns hidden) rel (f before) y) :
    RunM.Paired (upToRuns hidden) rel (record (.ran task) >>= f) y := by
  intro left right hhistory
  apply h left
  simpa [upToRuns, History.shown, hhidden] using hhistory

namespace Value

/-- The first value has layers around the second one, or around what it holds. Layers that both
have in common are left in place. -/
inductive Covers (hidden : Task → Bool) : Value → Value → Prop where
  | bool (b : Bool) : Covers hidden (bool b) (bool b)
  | int (n : Int64) : Covers hidden (int n) (int n)
  | double (d : Double) : Covers hidden (double d) (double d)
  | str (text : String) : Covers hidden (str text) (str text)
  | bytes (data : List UInt8) : Covers hidden (bytes data) (bytes data)
  | nil (declared : ValueType) : Covers hidden (nil declared) (nil declared)
  | array {xs ys : List Value} : xs.length = ys.length →
      (∀ {x y}, (x, y) ∈ xs.zip ys → Covers hidden x y) → Covers hidden (array xs) (array ys)
  | map {xs ys : Entries Value} : xs.length = ys.length →
      (∀ {p q}, (p, q) ∈ xs.zip ys → p.1 = q.1) →
      (∀ {p q}, (p, q) ∈ xs.zip ys → Covers hidden p.2 q.2) → Covers hidden (map xs) (map ys)
  | slot {v w : Value} {declared : ValueType} : declared = v.type → Covers hidden v w →
      Covers hidden (present v declared) w
  | answer {task : Task} {compute : History → Value} {w : Value} : hidden task = true →
      (∀ history, (compute history).isLazy = false) →
      (∀ history, task.returns = (compute history).type) →
      (∀ history, Covers hidden (compute history) w) → Covers hidden (lazy task compute) w
  | slots {v w : Value} (declared : ValueType) : Covers hidden v w →
      Covers hidden (present v declared) (present w declared)
  | answers {compute compute' : History → Value} (task : Task) :
      (∀ left right, (upToRuns hidden).history left right →
        (compute left).isLazy = (compute' right).isLazy) →
      (∀ left right, (upToRuns hidden).history left right →
        Covers hidden (compute left) (compute' right)) →
      Covers hidden (lazy task compute) (lazy task compute')

end Value

/-- The same names, bound to values of which the first cover the second. -/
def Context.Covers (hidden : Task → Bool) : Context → Context → Prop :=
  List.Forall₂ fun p q => p.1 = q.1 ∧ Value.Covers hidden p.2 q.2

namespace Value

theorem covers_array_iff {xs ys : List Value} :
    Covers hidden (array xs) (array ys) ↔ List.Forall₂ (Covers hidden) xs ys := by
  rw [List.forall₂_iff_zip]
  constructor
  · intro h
    cases h with
    | array hlength hitems => exact ⟨hlength, hitems⟩
  · rintro ⟨hlength, hitems⟩
    exact .array hlength hitems

theorem covers_map_iff {xs ys : Entries Value} :
    Covers hidden (map xs) (map ys) ↔ Context.Covers hidden xs ys := by
  rw [Context.Covers, List.forall₂_iff_zip]
  constructor
  · intro h
    cases h with
    | map hlength hkeys hvalues => exact ⟨hlength, fun hmem => ⟨hkeys hmem, hvalues hmem⟩⟩
  · rintro ⟨hlength, hentries⟩
    exact .map hlength (fun hmem => (hentries hmem).1) (fun hmem => (hentries hmem).2)

/-- What a value and one that covers it come to when they are forced. -/
inductive Settled (hidden : Task → Bool) : Value → Value → Prop where
  | bool (b : Bool) : Settled hidden (bool b) (bool b)
  | int (n : Int64) : Settled hidden (int n) (int n)
  | double (d : Double) : Settled hidden (double d) (double d)
  | str (text : String) : Settled hidden (str text) (str text)
  | bytes (data : List UInt8) : Settled hidden (bytes data) (bytes data)
  | nil (declared : ValueType) : Settled hidden (nil declared) (nil declared)
  | array {xs ys : List Value} : List.Forall₂ (Covers hidden) xs ys →
      Settled hidden (array xs) (array ys)
  | map {xs ys : Entries Value} : Context.Covers hidden xs ys → Settled hidden (map xs) (map ys)

namespace Covers

theorem type_eq {v w : Value} (h : Covers hidden v w) : v.type = w.type := by
  induction h with
  | slot hdeclared _ ih => exact hdeclared.trans ih
  | answer _ _ hreturns _ ih => exact (hreturns []).trans (ih [])
  | _ => rfl

end Covers

namespace Covers

variable {v w : Value}

theorem text? (h : Covers hidden v w) (format : FormatConfig) :
    RunM.Paired (upToRuns hidden) Eq (v.text? format) (w.text? format) := by
  induction h with
  | array hlength _ ih =>
    have hitems := paired_itemTexts (List.forall₂_iff_zip.2 ⟨hlength, ih⟩)
    exact .bind_eq hitems fun _ => .pure rfl
  | map hlength hkeys _ ih =>
    have hentries := paired_entryTexts (List.forall₂_iff_zip.2 ⟨hlength, fun {p q} hmem =>
      And.intro (hkeys hmem) (ih hmem)⟩)
    exact .bind_eq hentries fun _ => .pure rfl
  | slot _ _ ih => exact ih
  | answer hhidden hsettling _ _ ih =>
    -- Only the covering side runs something; its history stays alike since the task is hidden.
    refine paired_of_hidden hhidden fun before => ?_
    simp only [hsettling before]
    exact ih before
  | slots _ _ ih => exact ih
  | answers task hlazy _ ih =>
    refine .bind (paired_record _) fun left right hhistory => ?_
    simp only [hlazy left right hhistory]
    split
    · exact .pure rfl
    · exact ih left right hhistory
  | _ => exact .pure rfl

theorem forced (h : Covers hidden v w) :
    RunM.Paired (upToRuns hidden) (Settled hidden) v.forced w.forced := by
  induction h with
  | bool b => exact .pure (.bool b)
  | int n => exact .pure (.int n)
  | double d => exact .pure (.double d)
  | str text => exact .pure (.str text)
  | bytes data => exact .pure (.bytes data)
  | nil declared => exact .pure (.nil declared)
  | array hlength hitems _ => exact .pure (.array (covers_array_iff.1 (.array hlength hitems)))
  | map hlength hkeys hvalues _ =>
    exact .pure (.map (covers_map_iff.1 (.map hlength hkeys hvalues)))
  | slot _ _ ih => exact ih
  | answer hhidden _ _ _ ih => exact paired_of_hidden hhidden ih
  | slots _ _ ih => exact ih
  | answers task _ _ ih => exact .bind (paired_record _) ih

theorem isTruthy (h : Covers hidden v w) :
    RunM.Paired (upToRuns hidden) Eq v.isTruthy w.isTruthy := by
  refine .bind h.forced fun settled settled' hsettled => ?_
  cases hsettled <;> exact .pure rfl

end Covers

/-- A lazy value answers the same after any two histories that differ in hidden runs alone. -/
def Discreet (hidden : Task → Bool) : Value → Prop
  | lazy _ compute => ∀ left right, (upToRuns hidden).history left right →
      compute left = compute right
  | _ => True

theorem covers_self {v : Value} (h : Everywhere (Discreet hidden) v) : Covers hidden v v := by
  induction h with
  | @intro v here _ ih =>
    cases v with
    | bool b => exact .bool b
    | int n => exact .int n
    | double d => exact .double d
    | str text => exact .str text
    | bytes data => exact .bytes data
    | nil declared => exact .nil declared
    | array items =>
      rw [covers_array_iff, List.forall₂_same]
      exact fun v hv => ih v (.item hv)
    | map entries =>
      rw [covers_map_iff, Context.Covers, List.forall₂_same]
      exact fun pair hpair => ⟨rfl, ih pair.2 (.entry hpair)⟩
    | present inner declared => exact .slots declared (ih inner (.inner inner declared))
    | lazy task compute =>
      refine .answers task (fun left right hhistory => ?_) fun left right hhistory => ?_
      · rw [here left right hhistory]
      · rw [here left right hhistory]
        exact ih (compute right) (.result task compute right)

/-- What makes the layer on top of a value one that nobody sees: a lazy value keeps its answer,
which is no lazy value in turn, and runs a hidden task; the declared type is truthful. -/
structure LayerHere (hidden : Task → Bool) (v : Value) : Prop where
  steady : Steady v
  truthful : Truthful v
  settling : Settling v
  secret : RunsOf hidden v

/-- With nothing but such layers a value covers what is left without them. -/
theorem covers_bare {v : Value} (h : Everywhere (LayerHere hidden) v) :
    Covers hidden v v.bare := by
  induction h with
  | @intro v here _ ih =>
    cases v with
    | bool b => exact .bool b
    | int n => exact .int n
    | double d => exact .double d
    | str text => exact .str text
    | bytes data => exact .bytes data
    | nil declared => exact .nil declared
    | array items =>
      rw [bare, covers_array_iff, bareItems_eq_map, List.forall₂_map_right_iff, List.forall₂_same]
      exact fun v hv => ih v (.item hv)
    | map entries =>
      rw [bare, covers_map_iff, Context.Covers, bareEntries_eq_map, List.forall₂_map_right_iff,
        List.forall₂_same]
      exact fun pair hpair => ⟨rfl, ih pair.2 (.entry hpair)⟩
    | present inner declared => exact .slot here.truthful (ih inner (.inner inner declared))
    | lazy task compute =>
      refine .answer here.secret here.settling here.truthful fun history => ?_
      rw [bare, here.steady [] history]
      exact ih (compute history) (.result task compute history)

end Value

theorem Context.covers_bareEntries {data : Context}
    (h : ∀ key v, (key, v) ∈ data → Value.Everywhere (Value.LayerHere hidden) v) :
    Context.Covers hidden data (Value.bareEntries data) := by
  rw [Context.Covers, Value.bareEntries_eq_map, List.forall₂_map_right_iff, List.forall₂_same]
  exact fun pair hpair => ⟨rfl, Value.covers_bare (h pair.1 pair.2 hpair)⟩

end TemplateRender
