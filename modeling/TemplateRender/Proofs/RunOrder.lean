import TemplateRender.Format.Serialize
import TemplateRender.Proofs.Everywhere
import TemplateRender.Stock.Formatters

/-!
Which tasks run while a value is written, and in which order. Nothing is kept from one run to the
next, so with steady answers the tasks can be listed without running any: in pre-order, a task
before those of its answer, and an answer that is a lazy value again is left alone. Main statement:
finding the text of a value runs the tasks of its listing, whatever the formatters make of the
values, and finding it again runs them again (`text?_runs_listing`).
-/
namespace TemplateRender

/-- The history after the tasks have run one after another. -/
def History.ranAll (history : History) (tasks : List Task) : History :=
  (tasks.map Event.ran).reverse ++ history

theorem History.ranAll_cons (history : History) (task : Task) (tasks : List Task) :
    history.ranAll (task :: tasks) = History.ranAll (.ran task :: history) tasks := by
  simp [ranAll]

theorem History.ranAll_append (history : History) (first second : List Task) :
    history.ranAll (first ++ second) = (history.ranAll first).ranAll second := by
  simp [ranAll]

namespace Value

mutual

/-- The tasks behind a value in pre-order, each as often as it occurs. The answer of a lazy value is
that of a run before all others. The entries of a map stand in the order in which the map hands them
out; where there is one entry, no other order is possible. -/
def listing : Value → List Task
  | array items => itemsListing items
  | map entries => entriesListing entries
  | present inner _ => inner.listing
  | lazy task compute => task :: if (compute []).isLazy then [] else (compute []).listing
  | _ => []

def itemsListing : List Value → List Task
  | [] => []
  | v :: rest => v.listing ++ itemsListing rest

def entriesListing : Entries Value → List Task
  | [] => []
  | (_, v) :: rest => v.listing ++ entriesListing rest

end

section Steps

variable {task : Task} {compute : History → Value} {history : History}

/-- With steady answers, it does not matter when the lazy value is asked. -/
theorem listing_lazy (h : Steady (lazy task compute)) (hlazy : (compute history).isLazy = false) :
    (lazy task compute).listing = task :: (compute history).listing := by
  rw [listing, h [] history, hlazy, if_neg Bool.false_ne_true]

theorem listing_lazy_of_isLazy (h : Steady (lazy task compute))
    (hlazy : (compute history).isLazy = true) : (lazy task compute).listing = [task] := by
  rw [listing, h [] history, hlazy, if_pos rfl]

end Steps

mutual

theorem text?_ranAll (format : FormatConfig) : ∀ {v : Value}, Everywhere Steady v →
    ∀ history, (v.text? format history).2 = history.ranAll v.listing
  | array _, h, history => itemTexts_ranAll format (fun _ hv => h.item hv) history
  | map _, h, history => entryTexts_ranAll format (fun _ _ hv => h.entry hv) history
  | present _ _, h, history => text?_ranAll format h.inner history
  | lazy task compute, h, history => by
    cases hlazy : (compute history).isLazy with
    | true =>
      rw [text?_lazy_of_isLazy task hlazy, listing_lazy_of_isLazy h.here hlazy,
        History.ranAll_cons]
      rfl
    | false =>
      rw [text?_lazy task hlazy, listing_lazy h.here hlazy, History.ranAll_cons]
      exact text?_ranAll format (h.result history) (.ran task :: history)
  | bool _, _, _ => rfl
  | int _, _, _ => rfl
  | double _, _, _ => rfl
  | str _, _, _ => rfl
  | bytes _, _, _ => rfl
  | nil _, _, _ => rfl

/-- An element without a text does not keep those after it from running. -/
theorem itemTexts_ranAll (format : FormatConfig) : ∀ {items : List Value},
    (∀ v ∈ items, Everywhere Steady v) →
      ∀ history, (itemTexts format items history).2 = history.ranAll (itemsListing items)
  | [], _, _ => rfl
  | v :: rest, h, history => by
    have hhead := text?_ranAll format (h v (List.mem_cons_self ..)) history
    have hrest := itemTexts_ranAll format (fun w hw => h w (List.mem_cons_of_mem _ hw))
      (v.text? format history).2
    rw [itemsListing, History.ranAll_append, ← hhead, ← hrest]
    rfl

theorem entryTexts_ranAll (format : FormatConfig) : ∀ {entries : Entries Value},
    (∀ key v, (key, v) ∈ entries → Everywhere Steady v) →
      ∀ history, (entryTexts format entries history).2 = history.ranAll (entriesListing entries)
  | [], _, _ => rfl
  | (key, v) :: rest, h, history => by
    have hhead := text?_ranAll format (h key v (List.mem_cons_self ..)) history
    have hrest := entryTexts_ranAll format (fun k w hw => h k w (List.mem_cons_of_mem _ hw))
      (v.text? format history).2
    rw [entriesListing, History.ranAll_append, ← hhead, ← hrest]
    rfl

end

/-- Finding the text of a value runs each task of its listing once per occurrence, in order, and
finding it again runs all of them again. No formatter has a say in this. -/
theorem text?_runs_listing {v : Value} (h : Everywhere Steady v) (format format' : FormatConfig)
    (history : History) :
    let written := v.text? format history
    let again := v.text? format' written.2
    written.2 = history.ranAll v.listing ∧ again.2 = written.2.ranAll v.listing := by
  intro written again
  exact ⟨text?_ranAll format h history, text?_ranAll format' h written.2⟩

def innerTask : Task := { serial := 0, label := "inner", returns := .bytes, invariant := false }

def outerTask : Task := { serial := 1, label := "outer", returns := .array, invariant := true }

/-- Bytes that are no text, computed anew each time. -/
def computedBytes : Value := lazy innerTask fun _ => bytes [0xff]

/-- A list in which one task occurs on its own, in a slot, in the answer of another task, and as
that answer, which does not run. -/
def taskList : Value :=
  array [lazy outerTask fun _ => array [computedBytes, int 1], present computedBytes .bytes,
    lazy outerTask fun _ => computedBytes, map [("key", computedBytes)]]

theorem text?_runs_listing_taskList :
    let format : FormatConfig :=
      { formatters := { Formatters.standard with bytes := Stock.noText } }
    Everywhere Steady taskList ∧
      taskList.listing = [outerTask, innerTask, innerTask, outerTask, innerTask] ∧
      (taskList.text? format []).2 = History.ranAll [] taskList.listing ∧
      (taskList.text? {} (taskList.text? format []).2).2 =
        (taskList.text? format []).2.ranAll taskList.listing := by
  intro format
  have hbytes : Everywhere Steady computedBytes :=
    everywhere_lazy_iff.2 ⟨fun _ _ => rfl, fun _ => everywhere_of_no_part trivial nofun⟩
  have hlist : Everywhere Steady taskList := by
    refine everywhere_array_iff.2 ⟨trivial, ?_⟩
    simp only [List.forall_mem_cons]
    refine ⟨everywhere_lazy_iff.2 ⟨fun _ _ => rfl, fun _ => ?_⟩,
      everywhere_present_iff.2 ⟨trivial, hbytes⟩,
      everywhere_lazy_iff.2 ⟨fun _ _ => rfl, fun _ => hbytes⟩, ?_, List.forall_mem_nil _⟩
    · refine everywhere_array_iff.2 ⟨trivial, ?_⟩
      simp only [List.forall_mem_cons]
      exact ⟨hbytes, everywhere_of_no_part trivial nofun, List.forall_mem_nil _⟩
    · refine everywhere_map_iff.2 ⟨trivial, fun key v hv => ?_⟩
      obtain ⟨rfl, rfl⟩ := Prod.mk.inj (List.mem_singleton.1 hv)
      exact hbytes
  exact ⟨hlist, rfl, text?_runs_listing hlist format {} []⟩

end Value

end TemplateRender
