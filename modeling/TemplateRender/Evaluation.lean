import TemplateRender.Error
import TemplateRender.History

/-!
Computations that have all that they need. An evaluation gives a result or an error; the events
before an error stay in the history. A writing also appends text to an output, and what it has
written before an error stays in the output.
-/
namespace TemplateRender

abbrev EvalM := ExceptT EvalError RunM

abbrev WriteM := ExceptT EvalError (StateT String RunM)

variable {α β : Type}

namespace EvalM

@[simp] theorem run_pure (a : α) (history : History) :
    (pure a : EvalM α).run history = (.ok a, history) := rfl

@[simp] theorem run_throw (e : EvalError) (history : History) :
    (throw e : EvalM α).run history = (.error e, history) := rfl

@[simp] theorem run_lift (x : RunM α) (history : History) :
    (ExceptT.lift x : EvalM α).run history = (.ok (x history).1, (x history).2) := rfl

theorem run_bind (x : EvalM α) (f : α → EvalM β) (history : History) :
    (x >>= f).run history =
      match x.run history with
      | (.ok a, after) => (f a).run after
      | (.error e, after) => (.error e, after) := by
  change (ExceptT.bindCont f (x history).1) (x history).2 = _
  unfold ExceptT.run
  rcases x history with ⟨outcome, after⟩
  cases outcome <;> rfl

end EvalM

namespace WriteM

def write (text : String) : WriteM Unit := modify (· ++ text)

/-- An evaluation that writes nothing. -/
def ofEval (x : EvalM α) : WriteM α := ExceptT.mk (StateT.lift x.run)

/-- Writes to an output of its own and gives what was written. -/
def collect (x : WriteM Unit) : EvalM String := ExceptT.mk do
  match ← x.run.run "" with
  | (.ok (), output) => return .ok output
  | (.error e, _) => return .error e

@[simp] theorem run_pure (a : α) (output : String) (history : History) :
    (pure a : WriteM α).run.run output history = ((.ok a, output), history) := rfl

@[simp] theorem run_throw (e : EvalError) (output : String) (history : History) :
    (throw e : WriteM α).run.run output history = ((.error e, output), history) := rfl

@[simp] theorem run_ofEval (x : EvalM α) (output : String) (history : History) :
    (ofEval x).run.run output history =
      (((x.run history).1, output), (x.run history).2) := rfl

theorem run_bind (x : WriteM α) (f : α → WriteM β) (output : String) (history : History) :
    (x >>= f).run.run output history =
      match x.run.run output history with
      | ((.ok a, written), after) => (f a).run.run written after
      | ((.error e, written), after) => ((.error e, written), after) := by
  change (ExceptT.bindCont f (x output history).1.1) (x output history).1.2 (x output history).2 = _
  unfold ExceptT.run StateT.run
  rcases x output history with ⟨⟨outcome, written⟩, after⟩
  cases outcome <;> rfl

theorem run_tryCatch (x : WriteM α) (handle : EvalError → WriteM α) (output : String)
    (history : History) :
    (tryCatch x handle).run.run output history =
      match x.run.run output history with
      | ((.ok a, written), after) => ((.ok a, written), after)
      | ((.error e, written), after) => (handle e).run.run written after := by
  change ExceptT.tryCatch x handle output history = _
  simp only [ExceptT.tryCatch, ExceptT.mk, bind, StateT.bind]
  unfold ExceptT.run StateT.run
  rcases x output history with ⟨⟨outcome, written⟩, after⟩
  cases outcome <;> rfl

end WriteM

end TemplateRender
