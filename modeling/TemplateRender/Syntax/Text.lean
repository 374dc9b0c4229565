import TemplateRender.Double.Layout
import TemplateRender.Syntax.Basic
import TemplateRender.Text.Quoted

/-!
Parameters, tag calls and directives as one would type them. Bodies are left out.
-/
namespace TemplateRender

def Constant.text : Constant → String
  | .int n => toString n.toInt
  | .double d => d.write .marked

def Atom.source : Atom → String
  | .constant c => c.text
  | .text s => Text.quote s
  | .keyword k => k.word
  | .path p => p

mutual

/-- Members of a group are set apart by spaces and parameters of a tag by commas. -/
def Param.source : Param → String
  | .atom a => a.source
  | .group params => "(" ++ " ".intercalate (Param.sources params) ++ ")"
  | .tag call => call.source

def Param.sources : List Param → List String
  | [] => []
  | p :: rest => p.source :: Param.sources rest

def TagCall.source : TagCall → String
  | .mk name params _ => name ++ "(" ++ ", ".intercalate (Param.sources params) ++ ")"

end

/-- A directive with the template or part that it names. -/
def directiveText (word key : String) : String := word ++ "(" ++ Text.quote key ++ ")"

/-- The text of a tag call or directive; other nodes have none. -/
def Node.source? : Node → Option String
  | .custom call => some call.source
  | .importDirective key => some (directiveText "import" key)
  | .extendDirective key _ => some (directiveText "extend" key)
  | .exportDirective (.mk key _) => some (directiveText "export" key)
  | _ => none

end TemplateRender
