import TemplateRender.Double.Layout
import TemplateRender.Text.Quoted
import TemplateRender.Value.Basic

/-!
Two descriptions of values for people, neither of which runs a computation or is used for
output. The detailed one names the kind of each value and the declared types; the brief one
shows the content. Both list the entries of a map by key.
-/
namespace TemplateRender.Value

mutual

def detailed : Value → String
  | bool b => "Bool(" ++ toString b ++ ")"
  | int n => "Int(" ++ toString n.toInt ++ ")"
  | double d => "Double(" ++ d.write .marked ++ ")"
  | str text => "Str(" ++ Text.quote text ++ ")"
  | bytes data => "Bytes(" ++ toString data.length ++ " bytes)"
  | array items => "Array(" ++ Text.bracketed (detailedItems items) ++ ")"
  | map entries =>
    let lines := (Entries.sorted (detailedEntries entries)).map fun (key, text) =>
      Text.quote key ++ ": " ++ text
    "Map(" ++ Text.braced lines ++ ")"
  | nil declared => "Nil(" ++ declared.name ++ ")"
  | present inner declared => "Optional(" ++ declared.name ++ ", " ++ inner.detailed ++ ")"
  | lazy task _ =>
    "Lazy(" ++ task.returns.name ++ ", invariant: " ++ toString task.invariant ++ ")"

def detailedItems : List Value → List String
  | [] => []
  | v :: rest => v.detailed :: detailedItems rest

def detailedEntries : Entries Value → Entries String
  | [] => []
  | (key, v) :: rest => (key, v.detailed) :: detailedEntries rest

end

mutual

/-- Text stands between plain quotes, without escapes. -/
def brief : Value → String
  | bool b => toString b
  | int n => toString n.toInt
  | double d => d.write .marked
  | str text => "\"" ++ text ++ "\""
  | bytes data => "<" ++ toString data.length ++ " bytes>"
  | array items => Text.bracketed (briefItems items)
  | map entries =>
    Text.bracketed ((Entries.sorted (briefEntries entries)).map fun (key, text) =>
      key ++ ": " ++ text)
  | nil _ => "nil"
  | present inner _ => inner.brief
  | lazy task _ => "<lazy " ++ task.returns.name ++ ">"

def briefItems : List Value → List String
  | [] => []
  | v :: rest => v.brief :: briefItems rest

def briefEntries : Entries Value → Entries String
  | [] => []
  | (key, v) :: rest => (key, v.brief) :: briefEntries rest

end

theorem detailedItems_eq_map (items : List Value) : detailedItems items = items.map detailed := by
  induction items with
  | nil => rfl
  | cons v rest ih => rw [detailedItems, ih, List.map_cons]

theorem detailedEntries_eq_map (entries : Entries Value) :
    detailedEntries entries = entries.map fun pair => (pair.1, pair.2.detailed) := by
  induction entries with
  | nil => rfl
  | cons pair rest ih => rw [detailedEntries, ih, List.map_cons]

theorem briefItems_eq_map (items : List Value) : briefItems items = items.map brief := by
  induction items with
  | nil => rfl
  | cons v rest ih => rw [briefItems, ih, List.map_cons]

theorem briefEntries_eq_map (entries : Entries Value) :
    briefEntries entries = entries.map fun pair => (pair.1, pair.2.brief) := by
  induction entries with
  | nil => rfl
  | cons pair rest ih => rw [briefEntries, ih, List.map_cons]

/-- The detailed description of what a text, byte sequence, array or present slot holds. -/
def detailedContents? : Value → Option String
  | str text => some (Text.quote text)
  | bytes data => some (Text.bracketed (data.map fun b => toString b.toNat))
  | array items => some (Text.bracketed (detailedItems items))
  | present inner _ => some inner.detailed
  | _ => none

end TemplateRender.Value
