import TemplateRender.Evaluation
import TemplateRender.Format.Formatters
import TemplateRender.Value.Resolve

/-!
The text of a value. Only bytes can lack a text, and that lack passes outwards through slots and
lazy values but not out of a container, where the text of nil stands in for it. Writing a value
appends its text to an output that keeps what was written before an error.
-/
namespace TemplateRender.Value

mutual

/-- A lazy value that gives another lazy value has the text of nil, and the second one does not
run. -/
def text? (format : FormatConfig) : Value → RunM (Option String)
  | bool b => return some (format.formatters.boolean b)
  | int n => return some (format.formatters.integer n)
  | double d => return some (format.formatters.double d)
  | str text => return some (format.formatters.string text)
  | bytes data => return format.formatters.bytes data format.encoding
  | array items => return some (format.formatters.array (← itemTexts format items))
  | map entries =>
    return some (format.formatters.map (Entries.sorted (← entryTexts format entries)))
  | nil _ => return some format.formatters.nil
  | present inner _ => inner.text? format
  | lazy task compute => do
    let before ← record (.ran task)
    let produced := compute before
    if produced.isLazy then return some format.formatters.nil else produced.text? format

def itemTexts (format : FormatConfig) : List Value → RunM (List String)
  | [] => return []
  | v :: rest => do
    let text ← v.text? format
    return text.getD format.formatters.nil :: (← itemTexts format rest)

def entryTexts (format : FormatConfig) : Entries Value → RunM (Entries String)
  | [] => return []
  | (key, v) :: rest => do
    let text ← v.text? format
    return (key, text.getD format.formatters.nil) :: (← entryTexts format rest)

end

theorem text?_lazy {format : FormatConfig} (task : Task) {compute : History → Value}
    {before : History} (h : (compute before).isLazy = false) :
    (lazy task compute).text? format before =
      (compute before).text? format (.ran task :: before) := by
  simp [text?, h]

theorem text?_lazy_of_isLazy {format : FormatConfig} (task : Task) {compute : History → Value}
    {before : History} (h : (compute before).isLazy = true) :
    (lazy task compute).text? format before =
      (some format.formatters.nil, .ran task :: before) := by
  simp [text?, h]

/-- The text that a value contributes to the output. Bytes are decoded whatever their
formatter. -/
def outputText? (format : FormatConfig) : Value → RunM (Option String)
  | bytes data => return format.encoding.decode data
  | v => v.text? format

def append (format : FormatConfig) (v : Value) : WriteM Unit := do
  match ← WriteM.ofEval (ExceptT.lift (v.outputText? format)) with
  | some text => WriteM.write text
  | none => throw (.serializationFailed v.typeName)

theorem run_append (format : FormatConfig) (v : Value) (output : String) (history : History) :
    (v.append format).run.run output history =
      match v.outputText? format history with
      | (some text, after) => ((.ok (), output ++ text), after)
      | (none, after) => ((.error (.serializationFailed v.typeName), output), after) := by
  rw [append, WriteM.run_bind, WriteM.run_ofEval, EvalM.run_lift]
  rcases v.outputText? format history with ⟨_ | text, after⟩ <;> rfl

end TemplateRender.Value
