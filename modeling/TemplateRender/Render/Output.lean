import TemplateRender.Render.Program

/-!
Programs that write. Besides its result or its error, such a program has an output to which it adds
text, and what it has written before an error stays there.
-/
namespace TemplateRender

abbrev OutputM := ExceptT EvalError (StateT String Program)

namespace OutputM

variable {α β : Type}

def write (text : String) : OutputM Unit := modify (· ++ text)

/-- A program that writes nothing. -/
def ofRender (x : RenderM α) : OutputM α := ExceptT.mk (StateT.lift x.run)

/-- A writing that asks nothing. -/
def ofWrite (x : WriteM α) : OutputM α :=
  ExceptT.mk fun output => Program.ofRun (x.run.run output)

/-- The output of a writing that succeeded. -/
def written : Except EvalError Unit × String → Except EvalError String
  | (.ok (), output) => .ok output
  | (.error e, _) => .error e

/-- Writes to an output of its own and gives what was written. -/
def collect (x : OutputM Unit) : RenderM String := ExceptT.mk (written <$> x.run.run "")

theorem run_bind (x : OutputM α) (f : α → OutputM β) (output : String) :
    (x >>= f).run.run output = x.run.run output >>= fun (outcome, written) =>
      match outcome with
      | .ok a => (f a).run.run written
      | .error e => pure (.error e, written) := by
  change (x.run.run output >>= fun result => (ExceptT.bindCont f result.1).run result.2) = _
  refine bind_congr fun (outcome, written) => ?_
  cases outcome <;> rfl

end OutputM

end TemplateRender
