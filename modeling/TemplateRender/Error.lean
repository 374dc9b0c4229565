/-!
What can go wrong in a render. An error is its cause, and the wording of each cause is in one
place.
-/
namespace TemplateRender

inductive EvalError where
  /-- An import, extend or export directive was met; these have to be gone before rendering. -/
  | unresolvedDirective (directive : String)
  /-- A proper initial part of a loop path does not lead to a dictionary. -/
  | expectedDictionary (path : String)
  /-- A loop path does not lead to an array. -/
  | expectedArray (path : String)
  /-- An expression has no value where it needs one. -/
  | emptyParameterStatement
  /-- An expression has several values where it needs one. -/
  | multipleValues (count : Nat)
  /-- A value of the named type has no text. -/
  | serializationFailed (typeName : String)
  | arityMismatch (tag : String) (expected got : Nat)
  | missingBody (tag : String)
  | unexpectedBody (tag : String)
  /-- An error that a tag words itself. -/
  | custom (message : String)
deriving DecidableEq, Repr

namespace EvalError

def message : EvalError → String
  | unresolvedDirective directive => directive ++ " should have been resolved before rendering"
  | expectedDictionary path => "expected dictionary at key: " ++ path
  | expectedArray path => "expected array at key: " ++ path
  | emptyParameterStatement => "parameter statement can't be empty"
  | multipleValues count => "expression must hold a single value, got " ++ toString count
  | serializationFailed typeName => "unable to serialize " ++ typeName ++ " value"
  | arityMismatch tag expected got =>
    "#" ++ tag ++ " expects " ++ toString expected ++
      (if expected = 1 then " parameter, got " else " parameters, got ") ++ toString got
  | missingBody tag => "#" ++ tag ++ " requires a body"
  | unexpectedBody tag => "#" ++ tag ++ " does not accept a body"
  | custom message => message

def isSerializationFailure : EvalError → Bool
  | serializationFailed _ => true
  | _ => false

end EvalError

end TemplateRender
