import TemplateRender.Syntax.Basic

/-!
Structural equality of template bodies. Double literals are the same if their bits are, so a NaN
literal is the same as itself and the two zeros differ.
-/
namespace TemplateRender

mutual

def Param.same : Param → Param → Bool
  | .atom a, .atom b => a == b
  | .group ps, .group qs => Param.sameAll ps qs
  | .tag c, .tag d => c.same d
  | _, _ => false

def Param.sameAll : List Param → List Param → Bool
  | [], [] => true
  | p :: ps, q :: qs => p.same q && Param.sameAll ps qs
  | _, _ => false

def TagCall.same : TagCall → TagCall → Bool
  | .mk m ps none, .mk n qs none => m == n && Param.sameAll ps qs
  | .mk m ps (some xs), .mk n qs (some ys) =>
    m == n && Param.sameAll ps qs && Node.sameAll xs ys
  | _, _ => false

def Node.same : Node → Node → Bool
  | .raw s, .raw t => s == t
  | .expression ps, .expression qs => Param.sameAll ps qs
  | .conditional cs, .conditional ds => Clause.sameAll cs ds
  | .loop i p xs, .loop j q ys => i == j && p == q && Node.sameAll xs ys
  | .custom c, .custom d => c.same d
  | .importDirective k, .importDirective l => k == l
  | .extendDirective k es, .extendDirective l fs => k == l && Export.sameAll es fs
  | .exportDirective e, .exportDirective f => e.same f
  | _, _ => false

def Node.sameAll : List Node → List Node → Bool
  | [], [] => true
  | x :: xs, y :: ys => x.same y && Node.sameAll xs ys
  | _, _ => false

def Clause.same : Clause → Clause → Bool
  | .mk ps xs, .mk qs ys => Param.sameAll ps qs && Node.sameAll xs ys

def Clause.sameAll : List Clause → List Clause → Bool
  | [], [] => true
  | c :: cs, d :: ds => c.same d && Clause.sameAll cs ds
  | _, _ => false

def Export.same : Export → Export → Bool
  | .mk k xs, .mk l ys => k == l && Node.sameAll xs ys

def Export.sameAll : List Export → List Export → Bool
  | [], [] => true
  | e :: es, f :: fs => e.same f && Export.sameAll es fs
  | _, _ => false

end

end TemplateRender
