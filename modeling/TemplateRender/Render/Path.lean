import TemplateRender.Format.Serialize

/-!
Dotted paths into a context. A path has at least one segment, which may be empty. Looking a path
up forces every value on the way but not the last one, and gives nil when a key is missing or a
value on the way is no map. A loop follows its path in the same way but needs an array at the end
and says where the path went wrong.
-/
namespace TemplateRender

namespace Path

/-- The characters before the first dot, and those between the following dots. -/
def split : List Char → List Char × List (List Char)
  | [] => ([], [])
  | c :: rest =>
    let (first, others) := split rest
    if c = '.' then ([], first :: others) else (c :: first, others)

def first (path : String) : String := String.ofList (split path.toList).1

def others (path : String) : List String := (split path.toList).2.map String.ofList

def join (segments : List String) : String := ".".intercalate segments

theorem intercalate_split (cs : List Char) :
    ['.'].intercalate ((split cs).1 :: (split cs).2) = cs := by
  induction cs with
  | nil => rfl
  | cons c rest ih =>
    by_cases hc : c = '.'
    · subst hc
      simp only [split, if_true, List.intercalate_cons_cons, List.nil_append, ih]
      rfl
    · simp only [split, hc, if_false]
      cases hothers : (split rest).2 with
      | nil => simpa [hothers] using ih
      | cons next more => simpa [hothers, List.intercalate_cons_cons] using ih

/-- Splitting loses nothing: the segments with dots between them are the path. -/
theorem join_first_others (path : String) : join (first path :: others path) = path := by
  rw [join, ← String.toList_inj, String.toList_intercalate]
  simpa [first, others, Function.comp_def] using intercalate_split path.toList

/-- Descends from a value, forcing it before each step. -/
def descend : List String → Value → RunM Value
  | [], current => return current
  | segment :: rest, current => do
    match ← current.forced with
    | .map entries =>
      match Entries.get? entries segment with
      | some next => descend rest next
      | none => return .trueNil
    | _ => return .trueNil

end Path

def Context.lookup (data : Context) (path : String) : RunM Value :=
  match Entries.get? data (Path.first path) with
  | some v => Path.descend (Path.others path) v
  | none => return .trueNil

/-- What a loop finds under a key: the forced value, if the key is present. -/
def Context.forced? (data : Context) (key : String) : RunM (Option Value) :=
  match Entries.get? data key with
  | some v => some <$> v.forced
  | none => return none

namespace Path

/-- Follows the segments after `walked` to an array; `path` is the whole path. -/
def itemsFrom (path : String) (data : Context) (walked : List String) (segment : String) :
    List String → EvalM (List Value)
  | [] => do
    match ← ExceptT.lift (Context.forced? data segment) with
    | some (.array items) => return items
    | _ => throw (.expectedArray path)
  | next :: rest => do
    match ← ExceptT.lift (Context.forced? data segment) with
    | some (.map entries) => itemsFrom path entries (walked ++ [segment]) next rest
    | _ => throw (.expectedDictionary (join (walked ++ [segment])))

end Path

/-- The elements of the array at a path, for a loop. -/
def Context.loopItems (data : Context) (path : String) : EvalM (List Value) :=
  Path.itemsFrom path data [] (Path.first path) (Path.others path)

end TemplateRender
