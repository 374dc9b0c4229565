import TemplateRender.Proofs.Output

/-!
What a computation can end in. A condition on results and one on errors are met when every run, on
whatever history, gives a result or an error that they allow. Computations that ask are given a
condition for each request as well: whatever is answered may be taken to end in no other errors
than these. If the answers keep to that in turn, so does what is performed (`Meets.perform`).
-/
namespace TemplateRender

variable {α β : Type}

/-- Each run gives one of the results or one of the errors. -/
def EvalM.Meets (results : α → Prop) (errors : EvalError → Prop) (x : EvalM α) : Prop :=
  ∀ history, match (x.run history).1 with
    | .ok a => results a
    | .error e => errors e

/-- No run fails with another error. -/
abbrev EvalM.FailsWith (errors : EvalError → Prop) (x : EvalM α) : Prop :=
  EvalM.Meets (fun _ => True) errors x

/-- The errors that a request may be answered. -/
abbrev Answerable := Request → EvalError → Prop

/-- It ends in one of the results or one of the errors if no request is answered another error than
it may be. -/
inductive Step.Meets (answerable : Answerable) (results : α → Prop) (errors : EvalError → Prop) :
    Step (Except EvalError α) → Prop where
  | ok {a : α} (after : History) : results a → Meets answerable results errors (.done (.ok a) after)
  | error {e : EvalError} (after : History) : errors e →
      Meets answerable results errors (.done (.error e) after)
  | ask {request : Request} (before : History)
      {next : Except EvalError request.Result → History → Step (Except EvalError α)} :
      (∀ a after, Meets answerable results errors (next (.ok a) after)) →
      (∀ e after, answerable request e → Meets answerable results errors (next (.error e) after)) →
      Meets answerable results errors (.ask request before next)

def RenderM.Meets (answerable : Answerable) (results : α → Prop) (errors : EvalError → Prop)
    (x : RenderM α) : Prop :=
  ∀ history, (x.run history).Meets answerable results errors

abbrev RenderM.FailsWith (answerable : Answerable) (errors : EvalError → Prop) (x : RenderM α) :
    Prop :=
  RenderM.Meets answerable (fun _ => True) errors x

/-- On no output does it fail with another error. -/
def OutputM.FailsWith (answerable : Answerable) (errors : EvalError → Prop) (x : OutputM α) :
    Prop :=
  ∀ output, RenderM.FailsWith answerable errors (x.onto output)

variable {answerable : Answerable} {results : α → Prop} {errors : EvalError → Prop}

namespace EvalM

theorem Meets.pure {a : α} (h : results a) : Meets results errors (pure a) := fun _ => h

theorem Meets.throw {e : EvalError} (h : errors e) : Meets results errors (throw e) := fun _ => h

theorem Meets.lift (x : RunM α) : FailsWith errors (ExceptT.lift x) := fun _ => trivial

theorem Meets.bind {next : β → Prop} {x : EvalM α} {f : α → EvalM β}
    (hx : Meets results errors x) (hf : ∀ a, results a → Meets next errors (f a)) :
    Meets next errors (x >>= f) := by
  intro history
  have hhere := hx history
  rw [run_bind]
  generalize x.run history = outcome at hhere ⊢
  obtain ⟨_ | a, after⟩ := outcome
  · exact hhere
  · exact hf a hhere after

theorem FailsWith.imp {errors' : EvalError → Prop} {x : EvalM α} (hx : FailsWith errors x)
    (herrors : ∀ e, errors e → errors' e) : FailsWith errors' x := by
  intro history
  have hhere := hx history
  generalize (x.run history).1 = outcome at hhere ⊢
  cases outcome with
  | error e => exact herrors e hhere
  | ok a => trivial

end EvalM

theorem Step.Meets.bind {next : β → Prop} {step : Step (Except EvalError α)} {f : α → RenderM β}
    (h : step.Meets answerable results errors)
    (hf : ∀ a, results a → RenderM.Meets answerable next errors (f a)) :
    (step.bind (RenderM.andThen f)).Meets answerable next errors := by
  induction h with
  | ok after ha => exact hf _ ha after
  | error after he => exact .error after he
  | ask before _ _ ihok iherror => exact .ask before ihok iherror

theorem Step.Meets.mono {answerable' : Answerable} {step : Step (Except EvalError α)}
    (h : step.Meets answerable results errors)
    (hanswerable : ∀ request e, answerable' request e → answerable request e) :
    step.Meets answerable' results errors := by
  induction h with
  | ok after ha => exact .ok after ha
  | error after he => exact .error after he
  | ask before _ _ ihok iherror =>
    exact .ask before ihok fun e after he => iherror e after (hanswerable _ e he)

namespace RenderM

theorem Meets.pure {a : α} (h : results a) : Meets answerable results errors (pure a) :=
  fun history => .ok history h

theorem Meets.throw {e : EvalError} (h : errors e) : Meets answerable results errors (throw e) :=
  fun history => .error history h

theorem Meets.ofRun (x : RunM α) : FailsWith answerable errors (ofRun x) := fun _ => .ok _ trivial

theorem Meets.ofEval {x : EvalM α} (hx : EvalM.Meets results errors x) :
    Meets answerable results errors (ofEval x) := by
  intro history
  have hhere := hx history
  rw [run_ofEval]
  generalize x.run history = outcome at hhere ⊢
  obtain ⟨_ | a, after⟩ := outcome
  · exact .error after hhere
  · exact .ok after hhere

theorem Meets.ask {request : Request} (h : ∀ e, answerable request e → errors e) :
    FailsWith answerable errors (ask request) :=
  fun history => .ask history (fun _ after => .ok after trivial) fun e after he =>
    .error after (h e he)

theorem Meets.render {nodes : List Node} {data : Context}
    (h : ∀ e, answerable (.render nodes data) e → errors e) :
    FailsWith answerable errors (render nodes data) := .ask h

theorem Meets.resolve {params : List Param} {data : Context}
    (h : ∀ e, answerable (.resolve params data) e → errors e) :
    FailsWith answerable errors (resolve params data) := .ask h

theorem Meets.invoke {tag : String} {call : Invocation}
    (h : ∀ e, answerable (.invoke tag call) e → errors e) :
    FailsWith answerable errors (invoke tag call) := .ask h

theorem Meets.bind {next : β → Prop} {x : RenderM α} {f : α → RenderM β}
    (hx : Meets answerable results errors x)
    (hf : ∀ a, results a → Meets answerable next errors (f a)) :
    Meets answerable next errors (x >>= f) := by
  intro history
  rw [run_bind]
  exact (hx history).bind hf

theorem Meets.failsWith {x : RenderM α} (hx : Meets answerable results errors x) :
    FailsWith answerable errors x := by
  have hbind := hx.bind fun a _ => (Meets.pure (a := a) trivial : FailsWith answerable errors _)
  rwa [bind_pure] at hbind

end RenderM

namespace OutputM

theorem FailsWith.pure (a : α) : FailsWith answerable errors (pure a) := fun _ =>
  RenderM.Meets.pure trivial

theorem FailsWith.throw {e : EvalError} (h : errors e) :
    FailsWith answerable errors (throw e : OutputM α) := fun _ => RenderM.Meets.throw h

theorem FailsWith.write (text : String) : FailsWith answerable errors (write text) := fun _ =>
  RenderM.Meets.pure trivial

theorem FailsWith.bind {x : OutputM α} {f : α → OutputM β} (hx : FailsWith answerable errors x)
    (hf : ∀ a, FailsWith answerable errors (f a)) : FailsWith answerable errors (x >>= f) := by
  intro output
  rw [onto_bind]
  exact (hx output).bind fun result _ => hf result.1 result.2

theorem FailsWith.ofRender {x : RenderM α} (hx : RenderM.FailsWith answerable errors x) :
    FailsWith answerable errors (ofRender x) := by
  intro output
  rw [onto_ofRender]
  exact hx.bind fun _ _ => .pure trivial

theorem FailsWith.collect {x : OutputM Unit} (hx : FailsWith answerable errors x) :
    RenderM.FailsWith answerable errors (collect x) := by
  rw [collect_eq_onto]
  exact (hx "").bind fun _ _ => .pure trivial

theorem failsWith_each {text : Nat → Value → RenderM String}
    (htext : ∀ index v, RenderM.FailsWith answerable errors (text index v)) (items : List Value)
    (index : Nat) : FailsWith answerable errors (Loop.each text index items) := by
  induction items generalizing index with
  | nil => exact .pure ()
  | cons v rest ih =>
    refine .bind (.ofRender (htext index v)) fun written => ?_
    exact .bind (.write written) fun _ => ih (index + 1)

/-- Writing a value fails at most for lack of a text. -/
theorem failsWith_emit (env : RenderEnv) (v : Value)
    (herrors : ∀ typeName, errors (.serializationFailed typeName)) :
    FailsWith answerable errors (env.emit v) := by
  intro output
  rw [onto_emit]
  refine (RenderM.Meets.ofRun _).bind fun text? _ => ?_
  cases text? with
  | some text => exact .pure trivial
  | none =>
    cases env.policy with
    | strict => exact .throw (herrors _)
    | bestEffort => exact .pure trivial

end OutputM

section Perform

variable {answer : (request : Request) → RenderM request.Result}

/-- If all answers keep to what is taken of them, then no other error comes out. -/
theorem Step.Meets.perform
    (hanswer : ∀ request, RenderM.FailsWith answerable (answerable request) (answer request))
    {step : Step (Except EvalError α)} (h : step.Meets answerable results errors) {e : EvalError}
    {after : History} (hrun : step.perform answer = some (.error e, after)) : errors e := by
  obtain ⟨n, hn⟩ := Step.perform_eq_some_iff.1 hrun
  clear hrun
  -- Answers are performed within a smaller bound than the step that asks for them.
  induction n using Nat.strongRecOn generalizing α results errors e after with
  | ind n ih =>
  cases h with
  | ok after _ =>
    rw [Step.within_done] at hn
    cases hn
  | error after he =>
    rw [Step.within_done] at hn
    cases hn
    exact he
  | ask before hok herror =>
    cases n with
    | zero => simp [Step.within] at hn
    | succ n =>
      obtain ⟨outcome, answered, hanswered, hnext⟩ := Step.within_ask_eq_some_iff.1 hn
      cases outcome with
      | ok a => exact ih n n.lt_succ_self (hok a answered) hnext
      | error e' =>
        have he' := ih n n.lt_succ_self (hanswer _ before) hanswered
        exact ih n n.lt_succ_self (herror e' answered he') hnext

theorem RenderM.FailsWith.perform
    (hanswer : ∀ request, RenderM.FailsWith answerable (answerable request) (answer request))
    {x : RenderM α} (h : RenderM.FailsWith answerable errors x) {e : EvalError}
    {before after : History}
    (hrun : (x.perform answer).run before = some (.error e, after)) : errors e :=
  (h before).perform hanswer hrun

end Perform

end TemplateRender
