import TemplateRender.Proofs.PassesOn
import TemplateRender.Proofs.Simulation

/-!
The strict policy against the lenient one. Two renders that differ in the policy alone go hand in
hand up to the first value without a text. There the strict one fails, and its failure reaches the
top from wherever it happened, so a strict render that does not end in such a failure has done
exactly what the lenient one does. Tags and resolvers have to pass errors on for this, those of the
bodies, parameters and tags that they ask for on their own account included.
-/
namespace TemplateRender

variable {α : Type}

/-- Everything is the same, up to a failed serialization on the left. -/
def Likeness.upToFailure : Likeness where
  history := Eq
  released e := ∃ typeName, e = .serializationFailed typeName
  data _ := Eq
  value := Eq
  parameter := Eq
  weaken _ h := h
  asParameter h := h

open Likeness

theorem Likeness.upToFailure_self (request : Request) : upToFailure.Asked request request Eq :=
  upToFailure.asked_self (fun _ _ => rfl) rfl rfl request

/-- What passes errors on is in lockstep with itself, although what it asks for may fail on the left
alone. -/
theorem Step.PassesOn.lockstep {step : Step (Except EvalError α)} (h : step.PassesOn) :
    upToFailure.dialogue.Lockstep Eq step step := by
  induction h with
  | done outcome after => exact .done (.self rfl outcome)
  | ask before _ herror ih =>
    refine .ask (upToFailure_self _) rfl (fun {answered _} hagree => ?_) fun e after hreleased => ?_
    · obtain rfl := hagree.eq rfl
      obtain ⟨e | a, after⟩ := answered
      · obtain ⟨last, hlast⟩ := herror e after
        rw [hlast]
        exact .done (.error e rfl)
      · exact ih a after
    · obtain ⟨last, hlast⟩ := herror e after
      exact ⟨e, last, hlast, hreleased⟩

theorem RenderM.PassesOn.paired {x : RenderM α} (h : x.PassesOn) :
    RenderM.Paired upToFailure.dialogue Eq x x := by
  rintro left _ rfl
  exact (h left).lockstep

theorem RenderM.PassesOn.paired_forall₂ {x : RenderM (List Value)} (h : x.PassesOn) :
    RenderM.Paired upToFailure.dialogue (List.Forall₂ Eq) x x := by
  rw [List.forall₂_eq_eq_eq]
  exact h.paired

theorem Invocation.Alike.eq {call call' : Invocation}
    (h : Invocation.Alike upToFailure call call') : call = call' := by
  obtain ⟨name, parameters, data, body⟩ := call
  obtain ⟨name', parameters', data', body'⟩ := call'
  obtain ⟨rfl, hparameters, rfl, rfl⟩ := h
  obtain rfl : parameters = parameters' := List.forall₂_eq_eq_eq ▸ hparameters
  rfl

theorem Tag.PassesOn.paired {tag : Tag} (h : tag.PassesOn) (call : Invocation) {env env' : EnvView}
    (henv : env.UpToPolicy env') :
    RenderM.Paired upToFailure.dialogue Eq (tag { call with env })
      (tag { call with env := env' }) := by
  rw [h.blind call henv]
  exact (h.errors _).paired

theorem Resolver.PassesOn.paired {resolver : Resolver} (h : resolver.PassesOn)
    {env env' : EnvView} (henv : env.UpToPolicy env') (params : List Param) (data : Context) :
    RenderM.Paired upToFailure.dialogue (List.Forall₂ Eq) (resolver env params data)
      (resolver env' params data) := by
  rw [h.blind henv]
  exact (h.errors _ params data).paired_forall₂

/-- Where a value has a text, both policies do the same. -/
theorem paired_emit (renderer : Renderer) (userInfo : UserInfo) (v : Value) :
    OutputM.Paired upToFailure.dialogue Eq
      (RenderEnv.emit { renderer := { renderer with policy := .strict }, userInfo } v)
      (RenderEnv.emit { renderer := { renderer with policy := .bestEffort }, userInfo } v) := by
  intro output
  rw [OutputM.onto_emit, OutputM.onto_emit]
  refine .bind_eq (RenderM.PassesOn.ofRun _).paired fun text? => ?_
  cases text? with
  | some text => exact .pure ⟨rfl, rfl⟩
  | none =>
    have hfail : upToFailure.released (.serializationFailed v.typeName) := ⟨v.typeName, rfl⟩
    exact RenderM.paired_of_released hfail _

theorem view_upToPolicy (renderer : Renderer) (userInfo : UserInfo)
    (policy policy' : OutputPolicy) :
    EnvView.UpToPolicy (RenderEnv.view { renderer := { renderer with policy }, userInfo })
      (RenderEnv.view { renderer := { renderer with policy := policy' }, userInfo }) :=
  ⟨rfl, rfl, rfl⟩

/-- Equal contexts and equal values. -/
def Simulation.ofPolicies {renderer : Renderer} (hresolver : renderer.resolver.PassesOn)
    (htags : ∀ name tag, renderer.tags.get? name = some tag → tag.PassesOn) (userInfo : UserInfo) :
    Simulation { renderer := { renderer with policy := .strict }, userInfo }
      { renderer := { renderer with policy := .bestEffort }, userInfo } where
  toLikeness := upToFailure
  element := Eq
  nil := rfl
  tags := rfl
  resolve := by
    rintro params data _ rfl
    exact hresolver.paired (view_upToPolicy renderer userInfo _ _) params data
  tag name tag htag call call' hcall := by
    obtain rfl := hcall.eq
    exact (htags name tag htag).paired call (view_upToPolicy renderer userInfo _ _)
  isTruthy := by
    rintro v _ rfl history _ rfl
    exact ⟨rfl, rfl⟩
  emit := by
    rintro v _ rfl
    exact paired_emit renderer userInfo v
  items := by
    rintro path _ data _ rfl
    exact (RenderM.PassesOn.ofEval _).paired_forall₂
  scope := by
    rintro item count index _ data _ v _ rfl rfl
    rfl

/-- A strict render ends in a failed serialization or does exactly what the lenient render of the
same inputs does: it gives the same text or error, after the same events, or neither of them comes
to an end. -/
theorem render_strict_fails_or_agrees (renderer : Renderer)
    (hresolver : renderer.resolver.PassesOn)
    (htags : ∀ name tag, renderer.tags.get? name = some tag → tag.PassesOn)
    (nodes : List Node) (data : Context) (userInfo : UserInfo) (history : History) :
    let strict := { renderer with policy := .strict }.render nodes data userInfo
    let lenient := { renderer with policy := .bestEffort }.render nodes data userInfo
    (∃ typeName after,
        strict.run history = some (.error (.serializationFailed typeName), after)) ∨
      strict.run history = lenient.run history := by
  intro strict lenient
  have houtcomes : upToFailure.Outcomes Eq (strict.run history) (lenient.run history) :=
    (Simulation.ofPolicies hresolver htags userInfo).outcomes nodes rfl rfl
  generalize strict.run history = ending, lenient.run history = ending' at houtcomes
  cases houtcomes with
  | released left _ hreleased =>
    obtain ⟨typeName, rfl⟩ := hreleased
    exact Or.inl ⟨typeName, left, rfl⟩
  | agree hagree => exact Or.inr (congrArg some (hagree.eq rfl))
  | endless => exact Or.inr rfl

/-- Has a parameter of its own choice resolved and a body of its own put into a box. -/
def Stock.sampling : Tag := fun ctx => do
  let parameters ← RenderM.resolve [.atom (.path "x"), .tag (.mk "box" [] ctx.body)] ctx.data
  let body : List Node := [.expression [.atom (.path "sample")]]
  let data := Entries.insert "sample" (.array parameters) ctx.data
  RenderM.invoke "box" { ctx.toInvocation with parameters, data, body := some body }

theorem Stock.passesOn_sampling : Tag.PassesOn Stock.sampling where
  blind _ _ _ _ := rfl
  errors _ := .bind (.ask _) fun _ => .ask _

/-- A renderer with tags of which one makes use of the other. -/
def sampling : Renderer := { tags := ⟨[("box", Stock.box), ("sample", Stock.sampling)]⟩ }

/-- Bytes without a text in a body that one tag renders for another. -/
theorem sampling_strict_fails_or_agrees :
    let nodes : List Node := [.custom (.mk "sample" [] (some [.raw "text"]))]
    let data : Context := [("x", .bytes [0xff])]
    sampling.resolver.PassesOn ∧
      (∀ name tag, sampling.tags.get? name = some tag → tag.PassesOn) ∧
      ((∃ typeName after, ({ sampling with policy := .strict }.render nodes data {}).run [] =
          some (.error (.serializationFailed typeName), after)) ∨
        ({ sampling with policy := .strict }.render nodes data {}).run [] =
          ({ sampling with policy := .bestEffort }.render nodes data {}).run []) := by
  intro nodes data
  have htags : ∀ name tag, sampling.tags.get? name = some tag → tag.PassesOn :=
    Entries.of_get? (List.forall_mem_cons.2
      ⟨Stock.passesOn_box, List.forall_mem_singleton.2 Stock.passesOn_sampling⟩)
  exact ⟨Resolver.passesOn_context, htags,
    render_strict_fails_or_agrees sampling Resolver.passesOn_context htags nodes data {} []⟩

end TemplateRender
