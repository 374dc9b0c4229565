import Mathlib.Logic.ExistsUnique
import TemplateRender.Format.Serialize
import TemplateRender.Stock.Formatters

/-!
What writing a value does to the output. A slot has the type and the text of what it holds, so a
value with a slot around it is written like the value itself, with one exception: bytes on their own
are decoded whatever their formatter, and in a slot they go through it. Main statements: the slot is
seen exactly where the formatter of the bytes and their encoding disagree (`append_wrap_eq_iff`);
writing fails exactly for values that end at bytes without a text when they are followed inwards
(`append_fails_iff`).
-/
namespace TemplateRender.Value

variable (format : FormatConfig)

theorem type_wrap (v : Value) : v.wrap.type = v.type := by
  cases v <;> rfl

theorem typeName_wrap (v : Value) : v.wrap.typeName = v.typeName :=
  congrArg ValueType.name v.type_wrap

/-- With a slot around it, a value is written by its general text. -/
theorem outputText?_wrap (v : Value) : v.wrap.outputText? format = v.text? format := by
  cases v <;> rfl

theorem outputText?_eq_text? {v : Value} (h : ∀ data, v ≠ .bytes data) :
    v.outputText? format = v.text? format := by
  cases v with
  | bytes data => exact absurd rfl (h data)
  | _ => rfl

/-- Writing adds a text to the output, or fails and leaves the output as it was. -/
theorem append_ends (v : Value) (output : String) (history : History) :
    (∃ text after, (v.append format).run.run output history = ((.ok (), output ++ text), after)) ∨
      ∃ after, (v.append format).run.run output history =
        ((.error (.serializationFailed v.typeName), output), after) := by
  rw [run_append]
  rcases v.outputText? format history with ⟨_ | text, after⟩
  · exact Or.inr ⟨after, rfl⟩
  · exact Or.inl ⟨text, after, rfl⟩

/-- What is written tells the text, since nothing is written without one. -/
theorem append_eq_iff {v w : Value} (htype : v.typeName = w.typeName) (output : String)
    (history : History) :
    (v.append format).run.run output history = (w.append format).run.run output history ↔
      v.outputText? format history = w.outputText? format history := by
  rw [run_append, run_append, htype]
  rcases v.outputText? format history with ⟨_ | text, after⟩
  all_goals rcases w.outputText? format history with ⟨_ | text', after'⟩
  all_goals refine ⟨fun h => ?_, fun h => ?_⟩
  case some.some.refine_1 =>
    obtain ⟨hwritten, rfl⟩ := Prod.mk.inj h
    have htext := (String.append_right_inj output).1 (Prod.mk.inj hwritten).2
    rw [htext]
  all_goals cases h
  all_goals rfl

/-- A slot around a value changes what is written, the error, and the tasks that run, in no case
but one: the value is bytes, and the formatter and the encoding do not give them the same text. -/
theorem append_wrap_eq_iff (v : Value) (output : String) (history : History) :
    let bare := (v.append format).run.run output history
    let wrapped := (v.wrap.append format).run.run output history
    (wrapped = bare ↔ ∀ data, v = .bytes data →
        format.formatters.bytes data format.encoding = format.encoding.decode data) ∧
      ((∃ text after, bare = ((.ok (), output ++ text), after)) ∨
        ∃ after, bare = ((.error (.serializationFailed v.typeName), output), after)) := by
  intro bare wrapped
  refine ⟨?_, append_ends format v output history⟩
  rw [append_eq_iff format v.typeName_wrap, outputText?_wrap]
  by_cases hbytes : ∃ data, v = .bytes data
  · obtain ⟨data, rfl⟩ := hbytes
    refine ⟨fun h other hother => ?_, fun h => Prod.ext (h data rfl) rfl⟩
    obtain rfl := Value.bytes.inj hother
    exact congrArg Prod.fst h
  · have hother : ∀ data, v ≠ .bytes data := fun data heq => hbytes ⟨data, heq⟩
    rw [outputText?_eq_text? format hother]
    exact ⟨fun _ data heq => absurd heq (hother data), fun _ => rfl⟩

/-- Bytes that are text, under a formatter that gives no bytes a text. -/
theorem append_wrap_noText :
    let format : FormatConfig :=
      { formatters := { Formatters.standard with bytes := Stock.noText } }
    ((bytes [0x61]).append format).run.run "" [] = ((.ok (), "a"), []) ∧
      ((bytes [0x61]).wrap.append format).run.run "" [] =
        ((.error (.serializationFailed "bytes"), ""), []) := by
  intro format
  rw [run_append, run_append, outputText?_wrap]
  exact ⟨rfl, rfl⟩

/-- Following the value inwards from a history, through slots and through the answers of lazy
values that run, ends at another value. A lazy value that gives a lazy value is an end. -/
inductive EndsAt : Value → History → Value → Prop where
  | settled {v : Value} (history : History) : v.isWrapped = false → EndsAt v history v
  | slot {inner w : Value} {history : History} (declared : ValueType) :
      EndsAt inner history w → EndsAt (present inner declared) history w
  | answer {task : Task} {compute : History → Value} {history : History} {w : Value} :
      (compute history).isLazy = false → EndsAt (compute history) (.ran task :: history) w →
      EndsAt (lazy task compute) history w
  | stopped {task : Task} {compute : History → Value} {history : History} :
      (compute history).isLazy = true → EndsAt (lazy task compute) history (lazy task compute)

theorem exists_endsAt : ∀ (v : Value) (history : History), ∃ w, EndsAt v history w
  | present inner declared, history => by
    obtain ⟨w, hw⟩ := exists_endsAt inner history
    exact ⟨w, .slot declared hw⟩
  | lazy task compute, history => by
    cases hlazy : (compute history).isLazy with
    | true => exact ⟨lazy task compute, .stopped hlazy⟩
    | false =>
      obtain ⟨w, hw⟩ := exists_endsAt (compute history) (.ran task :: history)
      exact ⟨w, .answer hlazy hw⟩
  | array items, history => ⟨array items, .settled history rfl⟩
  | map entries, history => ⟨map entries, .settled history rfl⟩
  | bool b, history => ⟨bool b, .settled history rfl⟩
  | int n, history => ⟨int n, .settled history rfl⟩
  | double d, history => ⟨double d, .settled history rfl⟩
  | str text, history => ⟨str text, .settled history rfl⟩
  | bytes data, history => ⟨bytes data, .settled history rfl⟩
  | nil declared, history => ⟨nil declared, .settled history rfl⟩

theorem EndsAt.unique {v w w' : Value} {history : History} (h : EndsAt v history w)
    (h' : EndsAt v history w') : w = w' := by
  induction h with
  | settled history hsettled =>
    cases h' with
    | settled => rfl
    | _ => cases hsettled
  | slot declared _ ih =>
    cases h' with
    | settled _ hsettled => cases hsettled
    | slot _ h' => exact ih h'
  | answer hlazy _ ih =>
    cases h' with
    | settled _ hsettled => cases hsettled
    | answer _ h' => exact ih h'
    | stopped hstopped => simp [hlazy] at hstopped
  | stopped hlazy =>
    cases h' with
    | settled _ hsettled => cases hsettled
    | answer hanswer _ => simp [hlazy] at hanswer
    | stopped => rfl

/-- Containers have a text whatever they hold, so only bytes at the end can lack one. -/
theorem text?_eq_none_iff : ∀ (v : Value) (history : History),
    (v.text? format history).1 = none ↔
      ∃ data, EndsAt v history (bytes data) ∧
        format.formatters.bytes data format.encoding = none
  | bytes data, history => by
    refine ⟨fun h => ⟨data, .settled history rfl, h⟩, ?_⟩
    rintro ⟨other, hends, h⟩
    obtain rfl := Value.bytes.inj (hends.unique (.settled history rfl))
    exact h
  | present inner declared, history => by
    rw [text?, text?_eq_none_iff inner history]
    constructor
    · rintro ⟨data, hends, h⟩
      exact ⟨data, .slot declared hends, h⟩
    · rintro ⟨data, hends, h⟩
      cases hends with
      | slot _ hends => exact ⟨data, hends, h⟩
  | lazy task compute, history => by
    cases hlazy : (compute history).isLazy with
    | true =>
      refine iff_of_false (by simp [text?, hlazy]) ?_
      rintro ⟨data, hends, _⟩
      cases hends.unique (.stopped hlazy)
    | false =>
      rw [text?_lazy task hlazy, text?_eq_none_iff (compute history) (.ran task :: history)]
      constructor
      · rintro ⟨data, hends, h⟩
        exact ⟨data, .answer hlazy hends, h⟩
      · rintro ⟨data, hends, h⟩
        cases hends with
        | answer _ hends => exact ⟨data, hends, h⟩
  | array _, _ => iff_of_false nofun fun ⟨_, hends, _⟩ => by cases hends
  | map _, _ => iff_of_false nofun fun ⟨_, hends, _⟩ => by cases hends
  | bool _, _ => iff_of_false nofun fun ⟨_, hends, _⟩ => by cases hends
  | int _, _ => iff_of_false nofun fun ⟨_, hends, _⟩ => by cases hends
  | double _, _ => iff_of_false nofun fun ⟨_, hends, _⟩ => by cases hends
  | str _, _ => iff_of_false nofun fun ⟨_, hends, _⟩ => by cases hends
  | nil _, _ => iff_of_false nofun fun ⟨_, hends, _⟩ => by cases hends

/-- On their own bytes are judged by the encoding, behind a layer by their formatter. -/
theorem outputText?_eq_none_iff (v : Value) (history : History) :
    (v.outputText? format history).1 = none ↔
      (∃ data, v = bytes data ∧ format.encoding.decode data = none) ∨
        v.isWrapped = true ∧ ∃ data, EndsAt v history (bytes data) ∧
          format.formatters.bytes data format.encoding = none := by
  by_cases hbytes : ∃ data, v = bytes data
  · obtain ⟨data, rfl⟩ := hbytes
    constructor
    · exact fun h => Or.inl ⟨data, rfl, h⟩
    · rintro (⟨other, heq, h⟩ | ⟨hwrapped, _⟩)
      · obtain rfl := Value.bytes.inj heq
        exact h
      · cases hwrapped
  · have hother : ∀ data, v ≠ bytes data := fun data heq => hbytes ⟨data, heq⟩
    rw [outputText?_eq_text? format hother, text?_eq_none_iff]
    constructor
    · rintro ⟨data, hends, h⟩
      refine Or.inr ⟨?_, data, hends, h⟩
      cases hends with
      | settled => exact absurd rfl (hother data)
      | slot => rfl
      | answer => rfl
    · rintro (⟨data, heq, _⟩ | ⟨_, h⟩)
      · exact absurd heq (hother data)
      · exact h

theorem append_error_iff (v : Value) (output : String) (history : History) :
    (∃ e, ((v.append format).run.run output history).1.1 = .error e) ↔
      (v.outputText? format history).1 = none := by
  rw [run_append]
  rcases v.outputText? format history with ⟨_ | text, after⟩
  · exact iff_of_true ⟨_, rfl⟩ rfl
  · exact iff_of_false nofun nofun

theorem append_ok {v : Value} {output : String} {history : History}
    (h : ((v.append format).run.run output history).1.1 = .ok ()) :
    ∃ text, (v.outputText? format history).1 = some text ∧
      ((v.append format).run.run output history).1.2 = output ++ text := by
  revert h
  rw [run_append]
  rcases v.outputText? format history with ⟨_ | text, after⟩
  · exact nofun
  · exact fun _ => ⟨text, rfl, rfl⟩

/-- Writing fails exactly where the value, followed inwards, ends at bytes without a text. What
stands in an array or a map never makes it fail. A failure names the type of the value and leaves
the output as it was, and a success adds one text. -/
theorem append_fails_iff (v : Value) (output : String) (history : History) :
    let written := ((v.append format).run.run output history).1
    (∃! w, EndsAt v history w) ∧
      ((∃ e, written.1 = .error e) ↔
        (∃ data, v = bytes data ∧ format.encoding.decode data = none) ∨
          v.isWrapped = true ∧ ∃ data, EndsAt v history (bytes data) ∧
            format.formatters.bytes data format.encoding = none) ∧
      (∀ items, EndsAt v history (array items) → written.1 = .ok ()) ∧
      (∀ entries, EndsAt v history (map entries) → written.1 = .ok ()) ∧
      (∀ e, written.1 = .error e → e = .serializationFailed v.typeName ∧ written.2 = output) ∧
      (written.1 = .ok () → ∃ text, written.2 = output ++ text ∧
        ((∀ data, v ≠ bytes data) → (v.text? format history).1 = some text)) := by
  intro written
  have herror := append_error_iff format v output history
  have hnone := outputText?_eq_none_iff format v history
  have hcontainer : ∀ w, EndsAt v history w → (∀ data, w ≠ bytes data) → written.1 = .ok () := by
    intro w hends hw
    cases houtcome : written.1 with
    | ok => rfl
    | error e =>
      rcases hnone.1 (herror.1 ⟨e, houtcome⟩) with ⟨data, rfl, _⟩ | ⟨_, data, hdata, _⟩
      · exact absurd (hends.unique (.settled history rfl)) (hw data)
      · exact absurd (hends.unique hdata) (hw data)
  obtain ⟨last, hlast⟩ := exists_endsAt v history
  refine ⟨⟨last, hlast, fun w hends => hends.unique hlast⟩, herror.trans hnone, ?_, ?_, ?_, ?_⟩
  · exact fun items hends => hcontainer _ hends nofun
  · exact fun entries hends => hcontainer _ hends nofun
  · intro e houtcome
    rcases append_ends format v output history with ⟨text, after, hrun⟩ | ⟨after, hrun⟩
    · simp [written, hrun] at houtcome
    · simp only [written, hrun, Except.error.injEq] at houtcome ⊢
      exact ⟨houtcome.symm, trivial⟩
  · intro houtcome
    obtain ⟨text, htext, hwritten⟩ := append_ok format houtcome
    exact ⟨text, hwritten, fun hother => outputText?_eq_text? format hother ▸ htext⟩

end TemplateRender.Value
