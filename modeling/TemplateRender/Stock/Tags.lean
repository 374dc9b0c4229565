import TemplateRender.Render.Path
import TemplateRender.Render.Tag
import TemplateRender.Value.Conversion
import TemplateRender.Value.Equality
import TemplateRender.Value.Text

/-!
A stock of tags that between them use everything a tag is given: parameters, data, body, user
info, formatting, other tags and the history of the render.
-/
namespace TemplateRender.Stock

/-- A parameter by position; nil stands for one that is missing. -/
def param (ctx : TagContext) (i : Nat) : Value := (ctx.parameters[i]?).getD .trueNil

/-- The text under a position, forced. -/
def textParam (ctx : TagContext) (i : Nat) : RenderM String := do
  match ← RenderM.ofRun ((ctx.parameters[i]?).mapM Value.forced) with
  | some (.str text) => return text
  | _ => throw (.custom ("parameter " ++ toString i ++ " is not a string"))

def echo : Tag := fun ctx => return param ctx 0

def negation : Tag := fun ctx => do
  ctx.requireParameterCount 1
  return .bool (!(← RenderM.ofRun (param ctx 0).isTruthy))

def count : Tag := fun ctx => return toValue ctx.parameters.length

def equality : Tag := fun ctx => do
  ctx.requireParameterCount 2
  return .bool (← RenderM.ofRun ((param ctx 0).equal (param ctx 1)))

/-- The texts of all parameters; one without a text is an error. -/
def concat : Tag := fun ctx =>
  RenderM.ofEval (.str <$> WriteM.collect (ctx.parameters.forM (Value.append ctx.env.format)))

/-- The body between brackets after the name of the tag. -/
def box : Tag := fun ctx => do
  return .str (ctx.name ++ "[" ++ (← ctx.renderBody) ++ "]")

def body : Tag := fun ctx => .str <$> ctx.renderBody

def alone : Tag := fun ctx => do
  ctx.requireNoBody
  return .str "alone"

/-- Adds the text of a computation to what is written, `n` times. -/
def times (text : RenderM String) : Nat → String → RenderM String
  | 0, written => return written
  | n + 1, written => do times text n (written ++ (← text))

def repetition : Tag := fun ctx => do
  ctx.requireParameterCount 1
  let nodes ← ctx.requireBody
  match ← RenderM.ofRun (param ctx 0).forced with
  | .int n => .str <$> times (RenderM.render nodes ctx.data) n.toInt.toNat ""
  | _ => throw (.custom "repeat needs an int")

/-- The body over the data with one more name bound. -/
def binding : Tag := fun ctx => do
  ctx.requireParameterCount 2
  let nodes ← ctx.requireBody
  let name ← textParam ctx 0
  .str <$> RenderM.render nodes (Entries.insert name (param ctx 1) ctx.data)

def fail : Tag := fun ctx => do throw (.custom (← textParam ctx 0))

def infoKind? : String → Option InfoKind
  | "str" => some .text
  | "int" => some .number
  | "bool" => some .flag
  | _ => none

def info : Tag := fun ctx => do
  let key ← textParam ctx 0
  let kind ← textParam ctx 1
  return toValue
    ((infoKind? kind).bind fun kind => (ctx.env.userInfo.get? key kind).map InfoItem.value)

def lookup : Tag := fun ctx => do
  let path ← textParam ctx 0
  RenderM.ofRun (ctx.data.lookup path)

/-- Its parameter, computed only when it is asked for. -/
def later : Tag := fun ctx => do
  ctx.requireParameterCount 1
  let v := param ctx 0
  return .lazy { label := "later", serial := 0, returns := v.type, invariant := false } fun _ => v

def wrapping : Tag := fun ctx => do
  ctx.requireParameterCount 1
  return (param ctx 0).wrap

def resolution : Tag := fun ctx => do
  ctx.requireParameterCount 1
  RenderM.ofRun (param ctx 0).resolve

def typeName : Tag := fun ctx => do
  ctx.requireParameterCount 1
  return .str (param ctx 0).typeName

def descriptions : Tag := fun ctx =>
  return .str (";".intercalate (ctx.parameters.map Value.detailed))

/-- The tag of the name that it is given, on its own invocation. -/
def relay : Tag := fun ctx => do RenderM.invoke (← textParam ctx 0) ctx.toInvocation

def note : Tag := fun ctx => do
  let text ← textParam ctx 0
  let _ ← RenderM.ofRun (record (.noted ("#" ++ text)))
  return .trueNil

/-- The stock under its usual names. -/
def tags : Entries Tag :=
  [("echo", echo), ("not", negation), ("count", count), ("eq", equality), ("concat", concat),
    ("box", box), ("body", body), ("nobody", alone), ("repeat", repetition), ("let", binding),
    ("fail", fail), ("info", info), ("lookup", lookup), ("later", later), ("wrap", wrapping),
    ("resolve", resolution), ("type", typeName), ("show", descriptions), ("relay", relay),
    ("log", note)]

end TemplateRender.Stock
