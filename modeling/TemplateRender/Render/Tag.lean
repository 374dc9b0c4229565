import TemplateRender.Render.Resolver

/-!
Tags and the registry that finds them by name. A tag is any program from what it can see at its
invocation to a value or an error.
-/
namespace TemplateRender

/-- What a tag sees. -/
structure TagContext extends Invocation where
  env : EnvView

abbrev Tag := TagContext → RenderM Value

namespace TagContext

def requireParameterCount (ctx : TagContext) (expected : Nat) : RenderM Unit :=
  if ctx.parameters.length = expected then return
  else throw (.arityMismatch ctx.name expected ctx.parameters.length)

def requireBody (ctx : TagContext) : RenderM (List Node) :=
  match ctx.body with
  | some nodes => return nodes
  | none => throw (.missingBody ctx.name)

def requireNoBody (ctx : TagContext) : RenderM Unit :=
  match ctx.body with
  | some _ => throw (.unexpectedBody ctx.name)
  | none => return

/-- The text of the body over the data of the invocation. -/
def renderBody (ctx : TagContext) : RenderM String := do
  let nodes ← ctx.requireBody
  RenderM.render nodes ctx.data

end TagContext

structure TagRegistry where
  tags : Entries Tag := []

namespace TagRegistry

/-- Registers a tag, in place of an earlier one of the same name. -/
def register (registry : TagRegistry) (name : String) (tag : Tag) : TagRegistry :=
  ⟨Entries.insert name tag registry.tags⟩

def get? (registry : TagRegistry) (name : String) : Option Tag := Entries.get? registry.tags name

def contains (registry : TagRegistry) (name : String) : Bool :=
  Entries.contains registry.tags name

/-- Registered names in increasing order. -/
def names (registry : TagRegistry) : List String := Entries.sortedKeys registry.tags

def size (registry : TagRegistry) : Nat := registry.tags.length

/-- An unknown name is no error and gives nil. -/
def invoke (registry : TagRegistry) (name : String) (ctx : TagContext) : RenderM Value :=
  match registry.get? name with
  | some tag => tag ctx
  | none => return .trueNil

end TagRegistry

end TemplateRender
