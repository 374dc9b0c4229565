import TemplateRender.Render.Evaluator

/-!
Programs that write, as programs. A writing on a given output is a program that answers the new
output besides its result; what a failed writing leaves behind is dropped. Every fact about programs
then carries over to writings.
-/
namespace TemplateRender.OutputM

variable {α β : Type}

/-- The result of a writing together with the output; an error alone. -/
def kept : Except EvalError α × String → Except EvalError (α × String)
  | (.ok a, output) => .ok (a, output)
  | (.error e, _) => .error e

/-- The result of a writing on an output, and the new output. -/
def onto (x : OutputM α) (output : String) : RenderM (α × String) :=
  ExceptT.mk (kept <$> x.run.run output)

theorem onto_bind (x : OutputM α) (f : α → OutputM β) (output : String) :
    (x >>= f).onto output = x.onto output >>= fun result => (f result.1).onto result.2 := by
  rw [RenderM.bind_eq]
  change kept <$> (x >>= f).run.run output = kept <$> x.run.run output >>= RenderM.andThen _
  rw [run_bind, map_bind, bind_map_left]
  refine bind_congr fun (outcome, written) => ?_
  cases outcome <;> rfl

theorem onto_ofRender (x : RenderM α) (output : String) :
    (ofRender x).onto output = x >>= fun a => pure (a, output) := by
  rw [RenderM.bind_eq]
  change kept <$> (x.run >>= fun outcome => pure (outcome, output)) = x.run >>= RenderM.andThen _
  rw [map_bind]
  refine bind_congr fun outcome => ?_
  cases outcome <;> rfl

theorem collect_eq_onto (x : OutputM Unit) :
    collect x = x.onto "" >>= fun result => pure result.2 := by
  rw [RenderM.bind_eq]
  change written <$> x.run.run "" = kept <$> x.run.run "" >>= RenderM.andThen _
  rw [bind_map_left, map_eq_pure_bind]
  refine bind_congr fun (outcome, output) => ?_
  cases outcome <;> rfl

theorem run_onto_ofWrite (x : WriteM α) (output : String) (history : History) :
    ((ofWrite x).onto output).run history =
      .done (kept (x.run.run output history).1) (x.run.run output history).2 := rfl

/-- A value is written by way of its text. The policy matters only where there is none. -/
theorem onto_emit (env : RenderEnv) (v : Value) (output : String) :
    (env.emit v).onto output = RenderM.ofRun (v.outputText? env.format) >>= fun text? =>
      match text?, env.policy with
      | some text, _ => pure ((), output ++ text)
      | none, .strict => throw (.serializationFailed v.typeName)
      | none, .bestEffort => pure ((), output) := by
  funext history
  change ((env.emit v).onto output).run history = (_ >>= _ : RenderM (Unit × String)).run history
  rw [RenderM.run_bind, RenderM.run_ofRun, RenderEnv.emit, run_onto_ofWrite]
  cases env.policy with
  | strict =>
    simp only [Value.run_append]
    rcases v.outputText? env.format history with ⟨_ | text, after⟩ <;> rfl
  | bestEffort =>
    simp only [WriteM.run_tryCatch, Value.run_append]
    rcases v.outputText? env.format history with ⟨_ | text, after⟩ <;> rfl

end TemplateRender.OutputM
