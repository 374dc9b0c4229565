import Mathlib.Data.List.Forall2
import TemplateRender.Proofs.Lockstep
import TemplateRender.Proofs.Mentions

/-!
Renders side by side. A simulation relates the contexts and values of two renders of one template
and says that each elementary step (resolving parameters, running a tag, testing a condition,
writing a value, entering a loop) keeps them related. What is asked of contexts may depend on what
the template mentions. The requests of tags and resolvers are related in the same way, so that the
renders as a whole are in lockstep (`Simulation.renderAll`) and agree when they are performed
(`Simulation.outcomes`). This is the only induction over templates that a comparison of two renders
of one template needs.
-/
namespace TemplateRender

/-- What counts as alike in two renders. -/
structure Likeness extends Pairing where
  /-- Between contexts of a template that mentions certain parts of them. -/
  data : List Mention → Context → Context → Prop
  /-- Between values that come out of a computation. -/
  value : Value → Value → Prop
  /-- Between values that tags are given. -/
  parameter : Value → Value → Prop
  weaken : ∀ {mentions more : List Mention} {d d' : Context}, mentions ⊆ more →
    data more d d' → data mentions d d'
  asParameter : ∀ {v v' : Value}, value v v' → parameter v v'

/-- Two invocations that differ at most by related parameters and data. -/
structure Invocation.Alike (L : Likeness) (call call' : Invocation) : Prop where
  name : call.name = call'.name
  parameters : List.Forall₂ L.parameter call.parameters call'.parameters
  data : L.data (Body.free call.body) call.data call'.data
  body : call.body = call'.body

/-- Requests that differ at most by related parameters and data, and their results. -/
inductive Likeness.Asked (L : Likeness) : Correspondence where
  | render (nodes : List Node) {d d' : Context} : L.data (Node.freeAll nodes) d d' →
      L.Asked (.render nodes d) (.render nodes d') (@Eq String)
  | resolve (params : List Param) {d d' : Context} : L.data (Param.freeAll params) d d' →
      L.Asked (.resolve params d) (.resolve params d') (List.Forall₂ L.value)
  | invoke (tag : String) {call call' : Invocation} : Invocation.Alike L call call' →
      L.Asked (.invoke tag call) (.invoke tag call') L.value

def Likeness.dialogue (L : Likeness) : Dialogue := { L.toPairing with asked := L.Asked }

/-- Likeness between two renders of one template that every elementary step keeps. -/
structure Simulation (env env' : RenderEnv) extends Likeness where
  /-- Between elements of the arrays that loops run through. -/
  element : Value → Value → Prop
  nil : value .trueNil .trueNil
  tags : env'.tags = env.tags
  resolve : ∀ (params : List Param) {d d' : Context}, data (Param.freeAll params) d d' →
    RenderM.Paired toLikeness.dialogue (List.Forall₂ value) (env.resolver env.view params d)
      (env'.resolver env'.view params d')
  tag : ∀ name tag, env.tags.get? name = some tag → ∀ {call call' : Invocation},
    Invocation.Alike toLikeness call call' →
    RenderM.Paired toLikeness.dialogue value (tag (env.tagContext call))
      (tag (env'.tagContext call'))
  isTruthy : ∀ {v v' : Value}, value v v' → RunM.Paired toPairing Eq v.isTruthy v'.isTruthy
  emit : ∀ {v v' : Value}, value v v' →
    OutputM.Paired toLikeness.dialogue Eq (env.emit v) (env'.emit v')
  items : ∀ (path : String) {mentions : List Mention} {d d' : Context},
    data (.name (Path.first path) :: mentions) d d' →
    RenderM.Paired toLikeness.dialogue (List.Forall₂ element) (.ofEval (d.loopItems path))
      (.ofEval (d'.loopItems path))
  scope : ∀ (item : String) (count index : Nat) {mentions : List Mention} {d d' : Context}
    {v v' : Value}, data (mentions.filter fun m => m ∉ Loop.bound item) d d' → element v v' →
    data mentions (Loop.scope d item count index v) (Loop.scope d' item count index v')

variable {D : Dialogue}

theorem paired_single {rel : Value → Value → Prop} {values values' : List Value}
    (h : List.Forall₂ rel values values') :
    RenderM.Paired D rel (single values) (single values') := by
  cases h with
  | nil => exact .throw _
  | cons hhead htail =>
    cases htail with
    | nil => exact .pure hhead
    | cons hsecond hrest =>
      simp only [single, List.length_cons, hrest.length_eq]
      exact .throw _

theorem paired_each {rel : Value → Value → Prop} {text text' : Nat → Value → RenderM String}
    (htext : ∀ index v v', rel v v' → RenderM.Paired D Eq (text index v) (text' index v'))
    {items items' : List Value} (h : List.Forall₂ rel items items') (index : Nat) :
    OutputM.Paired D Eq (Loop.each text index items) (Loop.each text' index items') := by
  induction h generalizing index with
  | nil => exact .pure rfl
  | cons hhead _ ih =>
    refine .bind_eq (.ofRender (htext index _ _ hhead)) fun written => ?_
    exact .bind_eq (.write written) fun _ => ih (index + 1)

/-- A name finds one tag, and an unknown name gives nil. -/
theorem TagRegistry.paired_invoke {rel : Value → Value → Prop} {registry : TagRegistry}
    {name : String} {ctx ctx' : TagContext} (hnil : rel .trueNil .trueNil)
    (htag : ∀ tag, registry.get? name = some tag → RenderM.Paired D rel (tag ctx) (tag ctx')) :
    RenderM.Paired D rel (registry.invoke name ctx) (registry.invoke name ctx') := by
  unfold invoke
  cases hget : registry.get? name with
  | none => exact .pure hnil
  | some tag => exact htag tag hget

namespace Likeness

variable (L : Likeness)

theorem left {mentions more : List Mention} {d d' : Context} (h : L.data (mentions ++ more) d d') :
    L.data mentions d d' :=
  L.weaken (List.subset_append_left ..) h

theorem right {mentions more : List Mention} {d d' : Context}
    (h : L.data (mentions ++ more) d d') : L.data more d d' :=
  L.weaken (List.subset_append_right ..) h

/-- Where only equal values are alike, a request is like itself. -/
theorem asked_self (hdata : ∀ mentions d, L.data mentions d d) (hvalue : L.value = Eq)
    (hparameter : L.parameter = Eq) (request : Request) : L.Asked request request Eq := by
  have hforall : ∀ values : List Value, List.Forall₂ L.parameter values values := by
    rw [hparameter]
    exact List.forall₂_refl
  cases request with
  | render nodes data => exact .render nodes (hdata _ data)
  | resolve params data =>
    have hasked := Asked.resolve params (hdata (Param.freeAll params) data)
    rwa [hvalue, List.forall₂_eq_eq_eq] at hasked
  | invoke tag call => exact hvalue ▸ Asked.invoke tag ⟨rfl, hforall _, hdata _ call.data, rfl⟩

/-- A tag call has its parameters resolved and the tag invoked on them. -/
theorem invoke (call : TagCall) {d d' : Context} (h : L.data call.free d d') :
    RenderM.Paired L.dialogue L.value (call.invoke d) (call.invoke d') := by
  rw [TagCall.free_eq] at h
  refine .bind (.resolve (Asked.resolve call.params (L.left h))) fun values values' hrel => ?_
  exact .invoke (Asked.invoke call.name
    ⟨rfl, hrel.imp fun _ _ => L.asParameter, L.right h, rfl⟩)

/-- What is no group and no tag call has related values over contexts that are alike. -/
def Atoms : Prop :=
  ∀ (a : Atom) {d d' : Context}, L.data a.free d d' →
    RunM.Paired L.toPairing L.value (a.resolve d) (a.resolve d')

variable {L}

mutual

theorem Atoms.resolve (hatoms : L.Atoms) : ∀ (p : Param) {d d' : Context}, L.data p.free d d' →
    RenderM.Paired L.dialogue L.value (p.resolve d) (p.resolve d')
  | .atom a, _, _, h => .ofRun (hatoms a h)
  | .group params, _, _, h =>
    (hatoms.resolveAll params h).bind fun _ _ hvalues => paired_single hvalues
  | .tag call, _, _, h => L.invoke call h

theorem Atoms.resolveAll (hatoms : L.Atoms) : ∀ (params : List Param) {d d' : Context},
    L.data (Param.freeAll params) d d' →
    RenderM.Paired L.dialogue (List.Forall₂ L.value) (Param.resolveAll d params)
      (Param.resolveAll d' params)
  | [], _, _, _ => .pure .nil
  | p :: rest, _, _, h => by
    refine (hatoms.resolve p (L.left h)).bind fun v v' hv => ?_
    refine (hatoms.resolveAll rest (L.right h)).bind fun values values' hvalues => ?_
    exact .pure (.cons hv hvalues)

end

end Likeness

namespace Simulation

variable {env env' : RenderEnv}

theorem atomic (S : Simulation env env') (params : List Param) {d d' : Context}
    (h : S.data (Param.freeAll params) d d') :
    RenderM.Paired S.dialogue S.value (env.atomic params d) (env'.atomic params d') :=
  (S.resolve params h).bind fun _ _ hvalues => paired_single hvalues

-- The recursion is that of the evaluator.
mutual

theorem render (S : Simulation env env') : ∀ (node : Node) {d d' : Context},
    S.data node.free d d' →
    OutputM.Paired S.dialogue Eq (node.render env d) (node.render env' d')
  | .raw text, _, _, _ => by
    rw [Node.render, Node.render]
    exact .write text
  | .expression params, d, d', h => by
    rw [Node.render, Node.render]
    exact .bind (.ofRender (S.atomic params h)) fun _ _ => S.emit
  | .conditional chain, d, d', h => by
    rw [Node.render, Node.render]
    exact renderFirst S chain h
  | .loop item path body, d, d', h => by
    rw [Node.render, Node.render]
    refine .bind (.ofRender (S.items path h)) fun items items' hitems => ?_
    have hbody := S.weaken (List.subset_cons_self ..) h
    rw [hitems.length_eq]
    refine paired_each (fun index v v' hv => ?_) hitems 0
    exact (renderAll S body (S.scope item items'.length index hbody hv)).collect
  | .custom call, d, d', h => by
    rw [Node.render, Node.render]
    exact .bind (.ofRender (S.invoke call h)) fun _ _ => S.emit
  | .importDirective key, _, _, _ => by
    rw [Node.render, Node.render]
    exact .throw _
  | .extendDirective key _, _, _, _ => by
    rw [Node.render, Node.render]
    exact .throw _
  | .exportDirective (.mk key _), _, _, _ => by
    rw [Node.render, Node.render]
    exact .throw _

theorem renderAll (S : Simulation env env') : ∀ (nodes : List Node) {d d' : Context},
    S.data (Node.freeAll nodes) d d' →
    OutputM.Paired S.dialogue Eq (Node.renderAll env nodes d) (Node.renderAll env' nodes d')
  | [], _, _, _ => by
    rw [Node.renderAll, Node.renderAll]
    exact .pure rfl
  | node :: rest, d, d', h => by
    rw [Node.renderAll, Node.renderAll]
    exact .bind_eq (render S node (S.left h)) fun _ => renderAll S rest (S.right h)

theorem renderFirst (S : Simulation env env') : ∀ (chain : List Clause) {d d' : Context},
    S.data (Clause.freeAll chain) d d' →
    OutputM.Paired S.dialogue Eq (Clause.renderFirst env chain d)
      (Clause.renderFirst env' chain d')
  | [], _, _, _ => by
    rw [Clause.renderFirst, Clause.renderFirst]
    exact .pure rfl
  | .mk condition body :: rest, d, d', h => by
    rw [Clause.renderFirst, Clause.renderFirst]
    refine .bind (.ofRender (S.atomic condition (S.left h))) fun v v' hv => ?_
    refine .bind_eq (.ofRender (.ofRun (S.isTruthy hv))) fun holds => ?_
    by_cases hholds : holds = true
    · rw [if_pos hholds, if_pos hholds]
      exact renderAll S body (S.left (S.right h))
    · rw [if_neg hholds, if_neg hholds]
      exact renderFirst S rest (S.right (S.right h))

end

theorem invokeTag (S : Simulation env env') (name : String) {call call' : Invocation}
    (h : Invocation.Alike S.toLikeness call call') :
    RenderM.Paired S.dialogue S.value (env.tags.invoke name (env.tagContext call))
      (env'.tags.invoke name (env'.tagContext call')) := by
  rw [S.tags]
  exact env.tags.paired_invoke S.nil fun tag htag => S.tag name tag htag h

/-- What is asked for in the two renders is answered in lockstep. -/
theorem answers (S : Simulation env env') : S.dialogue.Answers env.answer env'.answer := by
  rintro r r' results ⟨⟩
  case render nodes d d' h =>
    rw [RenderEnv.answer_render, RenderEnv.answer_render]
    exact (S.renderAll nodes h).collect
  case resolve params d d' h => exact S.resolve params h
  case invoke name call call' h => exact S.invokeTag name h

end Simulation

/-- The renders of one template over data that is alike agree. -/
theorem Simulation.outcomes {renderer renderer' : Renderer} {info info' : UserInfo}
    (S : Simulation { renderer, userInfo := info } { renderer := renderer', userInfo := info' })
    (nodes : List Node) {d d' : Context} (h : S.data (Node.freeAll nodes) d d')
    {left right : History} (hhistory : S.history left right) :
    S.Outcomes Eq ((renderer.render nodes d info).run left)
      ((renderer'.render nodes d' info').run right) := by
  rw [Renderer.render_eq_perform, Renderer.render_eq_perform]
  exact (S.renderAll nodes h).collect.perform S.answers hhistory

end TemplateRender
