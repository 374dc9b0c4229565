import TemplateRender.Stock.Tags

/-!
Computations that pass errors on. Such a computation does as it likes on its own, errors and their
handling included, and asks for whatever it likes. But an error that it is answered is its own error
too: it can still do something about it on its own, such as to note it, but it asks for nothing more
and ends with the error that it was given.
-/
namespace TemplateRender

variable {α β : Type}

inductive Step.PassesOn : Step (Except EvalError α) → Prop where
  | done (outcome : Except EvalError α) (after : History) : PassesOn (.done outcome after)
  | ask {request : Request} (before : History)
      {next : Except EvalError request.Result → History → Step (Except EvalError α)} :
      (∀ a after, PassesOn (next (.ok a) after)) →
      (∀ e after, ∃ last, next (.error e) after = .done (.error e) last) →
      PassesOn (.ask request before next)

def RenderM.PassesOn (x : RenderM α) : Prop := ∀ history, (x.run history).PassesOn

theorem Step.PassesOn.bind {step : Step (Except EvalError α)} (h : step.PassesOn)
    {f : α → RenderM β} (hf : ∀ a, (f a).PassesOn) :
    (step.bind (RenderM.andThen f)).PassesOn := by
  induction h with
  | done outcome after =>
    cases outcome with
    | ok a => exact hf a after
    | error e => exact .done (.error e) after
  | ask before _ herror ih =>
    refine .ask before ih fun e after => ?_
    obtain ⟨last, hlast⟩ := herror e after
    exact ⟨last, congrArg (Step.bind · _) hlast⟩

namespace RenderM.PassesOn

theorem pure (a : α) : (pure a : RenderM α).PassesOn := fun history => .done (.ok a) history

theorem throw (e : EvalError) : (throw e : RenderM α).PassesOn :=
  fun history => .done (.error e) history

theorem ofRun (x : RunM α) : (ofRun x).PassesOn := fun _ => .done _ _

theorem ofEval (x : EvalM α) : (ofEval x).PassesOn := fun _ => .done _ _

theorem ask (request : Request) : (ask request).PassesOn :=
  fun history => .ask history (fun a after => .done (.ok a) after) fun _ after => ⟨after, rfl⟩

theorem bind {x : RenderM α} {f : α → RenderM β} (hx : x.PassesOn) (hf : ∀ a, (f a).PassesOn) :
    (x >>= f).PassesOn := by
  intro history
  rw [run_bind]
  exact (hx history).bind hf

end RenderM.PassesOn

/-- The same, but for the policy. -/
structure EnvView.UpToPolicy (env env' : EnvView) : Prop where
  userInfo : env.userInfo = env'.userInfo
  format : env.format = env'.format
  tags : env.tags = env'.tags

/-- The tag does not look at the policy, and passes on the errors of all that it asks for. -/
structure Tag.PassesOn (tag : Tag) : Prop where
  blind : ∀ (call : Invocation) {env env' : EnvView}, env.UpToPolicy env' →
    tag { call with env } = tag { call with env := env' }
  errors : ∀ ctx : TagContext, (tag ctx).PassesOn

/-- The resolver does not look at the policy, and passes on the errors of all that it asks for. -/
structure Resolver.PassesOn (resolver : Resolver) : Prop where
  blind : ∀ {env env' : EnvView}, env.UpToPolicy env' → resolver env = resolver env'
  errors : ∀ (env : EnvView) (params : List Param) (data : Context),
    (resolver env params data).PassesOn

theorem passesOn_single : ∀ values : List Value, (single values).PassesOn
  | [] => .throw _
  | [v] => .pure v
  | _ :: _ :: _ => .throw _

theorem TagCall.passesOn_invoke (call : TagCall) (data : Context) : (call.invoke data).PassesOn :=
  .bind (.ask _) fun _ => .ask _

mutual

theorem Param.passesOn_resolve (data : Context) : ∀ p : Param, (p.resolve data).PassesOn
  | .atom a => .ofRun (a.resolve data)
  | .group params => (Param.passesOn_resolveAll data params).bind passesOn_single
  | .tag call => call.passesOn_invoke data

theorem Param.passesOn_resolveAll (data : Context) : ∀ params : List Param,
    (Param.resolveAll data params).PassesOn
  | [] => .pure []
  | p :: rest =>
    (Param.passesOn_resolve data p).bind fun v =>
      (Param.passesOn_resolveAll data rest).bind fun values => .pure (v :: values)

end

theorem Resolver.passesOn_context : Resolver.PassesOn .context where
  blind _ := rfl
  errors _ params data := Param.passesOn_resolveAll data params

theorem TagContext.passesOn_renderBody (ctx : TagContext) : ctx.renderBody.PassesOn := by
  refine RenderM.PassesOn.bind ?_ fun nodes => .ask _
  unfold TagContext.requireBody
  cases ctx.body with
  | none => exact .throw _
  | some nodes => exact .pure nodes

theorem Stock.passesOn_box : Tag.PassesOn Stock.box where
  blind _ _ _ _ := rfl
  errors ctx := ctx.passesOn_renderBody.bind fun _ => .pure _

theorem Stock.passesOn_textParam (ctx : TagContext) (i : Nat) :
    (Stock.textParam ctx i).PassesOn := by
  refine RenderM.PassesOn.bind (.ofRun _) fun found => ?_
  split
  · exact .pure _
  · exact .throw _

theorem Stock.passesOn_relay : Tag.PassesOn Stock.relay where
  blind _ _ _ _ := rfl
  errors ctx := (Stock.passesOn_textParam ctx 0).bind fun _ => .ask _

end TemplateRender
