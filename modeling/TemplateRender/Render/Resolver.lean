import TemplateRender.Format.Serialize
import TemplateRender.Render.Path
import TemplateRender.Render.Program
import TemplateRender.Render.UserInfo

/-!
Resolving parameters to values. The context resolver gives one value for each parameter, in order,
and stops at the first error. It leaves tag calls to the render: the parameters of the tag go
through the resolver of the render, which may be another one, and its name through the registry.
-/
namespace TemplateRender

inductive OutputPolicy where
  /-- A value without a text contributes nothing. -/
  | bestEffort
  /-- A value without a text ends the render. -/
  | strict
deriving DecidableEq, Repr

/-- What a tag or a resolver can read of the render that it is part of. -/
structure EnvView where
  userInfo : UserInfo
  format : FormatConfig
  policy : OutputPolicy
  /-- Names of the registered tags in increasing order. -/
  tags : List String

abbrev Resolver := EnvView → List Param → Context → RenderM (List Value)

def Atom.resolve (data : Context) : Atom → RunM Value
  | .constant (.int n) => return .int n
  | .constant (.double d) => return .double d
  | .text s => return .str s
  | .keyword .trueWord => return .bool true
  | .keyword .falseWord => return .bool false
  | .keyword .nilWord => return .trueNil
  | .keyword .selfWord => return .map data
  | .path p => data.lookup p

/-- The one value of a list that has to hold exactly one. -/
def single : List Value → RenderM Value
  | [] => throw .emptyParameterStatement
  | [v] => return v
  | values => throw (.multipleValues values.length)

/-- Has the parameters of a tag resolved and the tag invoked on their values. -/
def TagCall.invoke (data : Context) (call : TagCall) : RenderM Value := do
  let parameters ← RenderM.resolve call.params data
  RenderM.invoke call.name { name := call.name, parameters, data, body := call.body }

mutual

def Param.resolve (data : Context) : Param → RenderM Value
  | .atom a => RenderM.ofRun (a.resolve data)
  | .group params => do single (← Param.resolveAll data params)
  | .tag call => call.invoke data

def Param.resolveAll (data : Context) : List Param → RenderM (List Value)
  | [] => return []
  | p :: rest => do
    let v ← p.resolve data
    return v :: (← Param.resolveAll data rest)

end

/-- Looks paths up in the context and knows no operators. -/
def Resolver.context : Resolver := fun _ params data => Param.resolveAll data params

end TemplateRender
