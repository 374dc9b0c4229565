import TemplateRender.Render.Path
import TemplateRender.Syntax.Basic

/-!
What a template mentions of its data. A path mentions its first segment, a keyword the whole
context, and a loop takes away the names that its iterations bind.
-/
namespace TemplateRender

/-- A part of the context that a template can refer to. -/
inductive Mention where
  | name (name : String)
  | whole
deriving DecidableEq, Repr

/-- What an iteration binds. -/
def Loop.bound (item : String) : List Mention :=
  [.name item, .name "isFirst", .name "isLast", .name "index"]

def Atom.free : Atom → List Mention
  | .path p => [.name (Path.first p)]
  | .keyword .selfWord => [.whole]
  | _ => []

mutual

def Param.free : Param → List Mention
  | .atom a => a.free
  | .group params => Param.freeAll params
  | .tag call => call.free

def Param.freeAll : List Param → List Mention
  | [] => []
  | p :: rest => p.free ++ Param.freeAll rest

def TagCall.free : TagCall → List Mention
  | .mk _ params none => Param.freeAll params
  | .mk _ params (some body) => Param.freeAll params ++ Node.freeAll body

/-- What a node mentions, apart from what it binds itself. -/
def Node.free : Node → List Mention
  | .raw _ => []
  | .expression params => Param.freeAll params
  | .conditional chain => Clause.freeAll chain
  | .loop item path body =>
    .name (Path.first path) :: (Node.freeAll body).filter fun m => m ∉ Loop.bound item
  | .custom call => call.free
  | .importDirective _ => []
  | .extendDirective _ parts => Export.freeAll parts
  | .exportDirective part => part.free

def Node.freeAll : List Node → List Mention
  | [] => []
  | node :: rest => node.free ++ Node.freeAll rest

def Clause.freeAll : List Clause → List Mention
  | [] => []
  | .mk condition body :: rest =>
    Param.freeAll condition ++ (Node.freeAll body ++ Clause.freeAll rest)

def Export.free : Export → List Mention
  | .mk _ body => Node.freeAll body

def Export.freeAll : List Export → List Mention
  | [] => []
  | part :: rest => part.free ++ Export.freeAll rest

end

/-- What the body of a tag mentions, if there is one. -/
def Body.free : Option (List Node) → List Mention
  | some nodes => Node.freeAll nodes
  | none => []

theorem TagCall.free_eq (call : TagCall) :
    call.free = Param.freeAll call.params ++ Body.free call.body := by
  obtain ⟨name, params, body⟩ := call
  cases body with
  | none => exact (List.append_nil _).symm
  | some nodes => rfl

end TemplateRender
