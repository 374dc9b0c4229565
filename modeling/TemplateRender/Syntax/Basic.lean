import TemplateRender.Double.Basic

/-!
Template bodies after parsing. A body is a list of nodes; nodes carry parameters, and both nodes
and parameters can call tags, which in turn carry parameters and a body. What a name or a path
refers to is settled only by a render.
-/
namespace TemplateRender

/-- A numeric literal. -/
inductive Constant where
  | int (n : Int64)
  | double (d : Double)
deriving DecidableEq, Repr

/-- The number as a double. A large integer is rounded to the nearest one. -/
def Constant.toDouble : Constant → Double
  | .int n => .ofInt n.toInt
  | .double d => d

def Constant.isDouble : Constant → Bool
  | .int _ => false
  | .double _ => true

inductive Keyword where
  | trueWord
  | falseWord
  | nilWord
  /-- The whole context. -/
  | selfWord
deriving DecidableEq, Repr

def Keyword.word : Keyword → String
  | .trueWord => "true"
  | .falseWord => "false"
  | .nilWord => "nil"
  | .selfWord => "self"

/-- A parameter without parts. -/
inductive Atom where
  | constant (c : Constant)
  | text (s : String)
  | keyword (k : Keyword)
  /-- A dotted path into the context. -/
  | path (p : String)
deriving DecidableEq, Repr

mutual

inductive Param where
  | atom (a : Atom)
  /-- Parameters between parentheses, which have to come to a single value. -/
  | group (params : List Param)
  | tag (call : TagCall)

/-- A tag by name, with its parameters and, if it has one, its body. -/
inductive TagCall where
  | mk (name : String) (params : List Param) (body : Option (List Node))

inductive Node where
  /-- Text that is copied to the output. -/
  | raw (text : String)
  /-- Parameters whose single value is written. -/
  | expression (params : List Param)
  /-- Clauses of which the first that holds is rendered. -/
  | conditional (chain : List Clause)
  /-- The body for each element of the array at a path, the element bound to a name. -/
  | loop (item : String) (path : String) (body : List Node)
  | custom (call : TagCall)
  | importDirective (key : String)
  | extendDirective (key : String) (exports : List Export)
  | exportDirective (part : Export)

inductive Clause where
  | mk (condition : List Param) (body : List Node)

/-- A named part of a template. -/
inductive Export where
  | mk (key : String) (body : List Node)

end

namespace TagCall

def name : TagCall → String
  | mk name _ _ => name

def params : TagCall → List Param
  | mk _ params _ => params

def body : TagCall → Option (List Node)
  | mk _ _ body => body

end TagCall

def Param.path (path : String) : Param := .atom (.path path)

namespace Node

/-- A node that writes the value at a path. -/
def path (path : String) : Node := expression [.path path]

/-- Directives combine templates and have to be gone before a render. -/
def isComposition : Node → Bool
  | importDirective _ => true
  | extendDirective _ _ => true
  | exportDirective _ => true
  | _ => false

def kindName : Node → String
  | raw _ => "raw"
  | expression _ => "expression"
  | conditional _ => "conditional"
  | loop _ _ _ => "loop"
  | custom _ => "custom"
  | importDirective _ => "import"
  | extendDirective _ _ => "extend"
  | exportDirective _ => "export"

end Node

end TemplateRender
