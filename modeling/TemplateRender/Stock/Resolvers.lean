import TemplateRender.Render.Resolver

/-!
Resolvers besides the context resolver. They show that a render makes no assumption about how
many values a parameter list gives.
-/
namespace TemplateRender.Stock

/-- The values of the context resolver, each of them `n` times. -/
def repeated (n : Nat) : Resolver := fun view params data => do
  let values ← Resolver.context view params data
  return values.flatMap (List.replicate n)

def upperAscii (text : String) : String := text.map Char.toUpper

/-- Paths give their forced value, and text in capitals; everything else is nil. -/
def shoutOne (data : Context) : Param → RunM Value
  | .atom (.path p) => do
    match ← (← data.lookup p).forced with
    | .str text => return .str (upperAscii text)
    | v => return v
  | _ => return .trueNil

def shout : Resolver := fun _ params data => RenderM.ofRun (params.mapM (shoutOne data))

end TemplateRender.Stock
