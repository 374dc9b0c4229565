import TemplateRender.Proofs.Entries
import TemplateRender.Proofs.Simulation
import TemplateRender.Stock.Tags

/-!
Templates that may be written for one another. The laws are few: parentheses around one parameter,
or around all parameters of an expression or a condition, a tag as a node or as the parameter of
an expression, and conditionals with a clause that always holds. `Congruent` is the smallest
congruence that they generate over all parts of templates. Main statement: congruent templates
render alike (`render_congruent`). Every part has an effect under a configuration, and congruent
parts have one and the same.
-/
namespace TemplateRender

/-- The kinds of parts that a template is made of. -/
inductive Phrase where
  | param
  | params
  /-- Parameters that have to come to one value: those of an expression or a condition. -/
  | statement
  | call
  | nodes
  | chain

namespace Phrase

abbrev Tree : Phrase → Type
  | param => Param
  | params => List Param
  | statement => List Param
  | call => TagCall
  | nodes => List Node
  | chain => List Clause

/-- What carrying out a part over a context amounts to. -/
abbrev Effect : Phrase → Type
  | param => Context → RenderM Value
  | params => Context → RenderM (List Value)
  | statement => Context → RenderM Value
  | call => Context → RenderM Value
  | nodes => Context → OutputM Unit
  | chain => Context → OutputM Unit

def effect (env : RenderEnv) : (k : Phrase) → k.Tree → k.Effect
  | param, (p : Param) => fun data => p.resolve data
  | params, (ps : List Param) => fun data => Param.resolveAll data ps
  | statement, (ps : List Param) => env.atomic ps
  | call, (c : TagCall) => fun data => c.invoke data
  | nodes, (xs : List Node) => Node.renderAll env xs
  | chain, (cs : List Clause) => Clause.renderFirst env cs

end Phrase

/-- The clause whose condition is the keyword that always holds. -/
def Clause.always (body : List Node) : Clause := .mk [.atom (.keyword .trueWord)] body

/-- The smallest congruence with the laws that come first. -/
inductive Congruent : (k : Phrase) → k.Tree → k.Tree → Prop where
  | ungroup (p : Param) : Congruent .param (.group [p]) p
  | grouped (ps : List Param) : Congruent .statement ps [.group ps]
  | custom (c : TagCall) : Congruent .nodes [.custom c] [.expression [.tag c]]
  | splice (body : List Node) (rest : List Clause) :
      Congruent .nodes [.conditional (.always body :: rest)] body
  | cut (chain : List Clause) (body : List Node) (rest : List Clause) :
      Congruent .nodes [.conditional (chain ++ .always body :: rest)]
        [.conditional (chain ++ [.always body])]
  | refl (k : Phrase) (x : k.Tree) : Congruent k x x
  | symm {k : Phrase} {x y : k.Tree} : Congruent k x y → Congruent k y x
  | trans {k : Phrase} {x y z : k.Tree} : Congruent k x y → Congruent k y z → Congruent k x z
  | group {ps qs : List Param} : Congruent .params ps qs →
      Congruent .param (.group ps) (.group qs)
  | tag {c d : TagCall} : Congruent .call c d → Congruent .param (.tag c) (.tag d)
  | cons {p q : Param} {ps qs : List Param} : Congruent .param p q → Congruent .params ps qs →
      Congruent .params (p :: ps) (q :: qs)
  | statement {ps qs : List Param} : Congruent .params ps qs → Congruent .statement ps qs
  | bare (name : String) {ps qs : List Param} : Congruent .params ps qs →
      Congruent .call (.mk name ps none) (.mk name qs none)
  | bodied (name : String) {ps qs : List Param} {xs ys : List Node} : Congruent .params ps qs →
      Congruent .nodes xs ys → Congruent .call (.mk name ps (some xs)) (.mk name qs (some ys))
  | append {xs ys us vs : List Node} : Congruent .nodes xs ys → Congruent .nodes us vs →
      Congruent .nodes (xs ++ us) (ys ++ vs)
  | expression {ps qs : List Param} : Congruent .statement ps qs →
      Congruent .nodes [.expression ps] [.expression qs]
  | conditional {cs ds : List Clause} : Congruent .chain cs ds →
      Congruent .nodes [.conditional cs] [.conditional ds]
  | loop (item path : String) {xs ys : List Node} : Congruent .nodes xs ys →
      Congruent .nodes [.loop item path xs] [.loop item path ys]
  | node {c d : TagCall} : Congruent .call c d → Congruent .nodes [.custom c] [.custom d]
  | clause {ps qs : List Param} {xs ys : List Node} {cs ds : List Clause} :
      Congruent .statement ps qs → Congruent .nodes xs ys → Congruent .chain cs ds →
      Congruent .chain (.mk ps xs :: cs) (.mk qs ys :: ds)

/-- Requests of a tag that differ at most in its body, with which nothing is done but to render it
or to hand it over to another tag. -/
inductive BodyAsked (xs ys : List Node) : Correspondence where
  | same (request : Request) : BodyAsked xs ys request request Eq
  | body (data : Context) : BodyAsked xs ys (.render xs data) (.render ys data) Eq
  | handOver (tag : String) (call : Invocation) :
      BodyAsked xs ys (.invoke tag { call with body := some xs })
        (.invoke tag { call with body := some ys }) Eq

/-- All that the tag sees of its body is whether there is one, and all that it does with it is to
have it rendered or to hand it over to tags that do no more. -/
def Tag.BlindToBody (tag : Tag) : Prop :=
  ∀ (ctx : TagContext) (xs ys : List Node), RenderM.Paired ⟨.exact, BodyAsked xs ys⟩ Eq
    (tag { ctx with body := some xs }) (tag { ctx with body := some ys })

/-- The tag, made to note a name before it runs. -/
def Tag.noting (name : String) (tag : Tag) : Tag := fun ctx => do
  let _ ← RenderM.ofRun (record (.noted name))
  tag ctx

/-- The registry with every tag made to note the name under which it is registered. -/
def TagRegistry.noting (registry : TagRegistry) : TagRegistry :=
  ⟨registry.tags.map fun (name, tag) => (name, tag.noting name)⟩

theorem TagRegistry.get?_noting (registry : TagRegistry) (name : String) :
    registry.noting.get? name = (registry.get? name).map (Tag.noting name) := by
  exact Entries.get?_map Tag.noting registry.tags name

theorem Tag.BlindToBody.noting {tag : Tag} (h : tag.BlindToBody) (name : String) :
    (tag.noting name).BlindToBody :=
  fun ctx xs ys => .bind_eq (.refl .same _) fun _ => h ctx xs ys

/-- Bodies of tags that are congruent. -/
inductive Body.Congruent : Option (List Node) → Option (List Node) → Prop where
  | none : Body.Congruent none none
  | some {xs ys : List Node} : TemplateRender.Congruent .nodes xs ys →
      Body.Congruent (some xs) (some ys)

/-- Requests for congruent parts. -/
inductive CongruentAsked : Correspondence where
  | render {xs ys : List Node} (data : Context) : Congruent .nodes xs ys →
      CongruentAsked (.render xs data) (.render ys data) (@Eq String)
  | resolve {ps qs : List Param} (data : Context) : Congruent .params ps qs →
      CongruentAsked (.resolve ps data) (.resolve qs data) (@Eq (List Value))
  | invoke (tag name : String) (parameters : List Value) (data : Context)
      {body body' : Option (List Node)} : Body.Congruent body body' →
      CongruentAsked (.invoke tag { name, parameters, data, body })
        (.invoke tag { name, parameters, data, body := body' }) (@Eq Value)

namespace Body.Congruent

theorem refl : ∀ body : Option (List Node), Body.Congruent body body
  | .none => .none
  | .some xs => .some (.refl .nodes xs)

theorem symm {body body' : Option (List Node)} :
    Body.Congruent body body' → Body.Congruent body' body
  | .none => .none
  | .some h => .some h.symm

theorem trans {body body' body'' : Option (List Node)} :
    Body.Congruent body body' → Body.Congruent body' body'' → Body.Congruent body body''
  | .none, h' => h'
  | .some h, .some h' => .some (h.trans h')

end Body.Congruent

theorem CongruentAsked.refl : ∀ request : Request, CongruentAsked request request Eq
  | .render nodes data => .render data (.refl .nodes nodes)
  | .resolve params data => .resolve data (.refl .params params)
  | .invoke tag call => .invoke tag call.name call.parameters call.data (.refl call.body)

/-- Requests that differ at most in a congruent body are requests for congruent parts. -/
theorem BodyAsked.congruent {xs ys : List Node} (h : Congruent .nodes xs ys) {r r' : Request}
    {results : r.Result → r'.Result → Prop} :
    BodyAsked xs ys r r' results → CongruentAsked r r' results
  | .same request => .refl request
  | .body data => .render data h
  | .handOver tag call => .invoke tag call.name call.parameters call.data (.some h)

theorem CongruentAsked.equivalence : CongruentAsked.Equivalence where
  refl := .refl
  symm h := by
    cases h with
    | render data h => exact Std.Symm.flip_eq (r := @Eq String) ▸ .render data h.symm
    | resolve data h => exact Std.Symm.flip_eq (r := @Eq (List Value)) ▸ .resolve data h.symm
    | invoke tag name parameters data h =>
      exact Std.Symm.flip_eq (r := @Eq Value) ▸ .invoke tag name parameters data h.symm
  trans h h' := by
    cases h with
    | render data h =>
      cases h' with
      | render _ h' =>
        rw [Relation.comp_eq]
        exact .render data (h.trans h')
    | resolve data h =>
      cases h' with
      | resolve _ h' =>
        rw [Relation.comp_eq]
        exact .resolve data (h.trans h')
    | invoke tag name parameters data h =>
      cases h' with
      | invoke _ _ _ _ h' =>
        rw [Relation.comp_eq]
        exact .invoke tag name parameters data (h.trans h')

/-- The same is done, up to requests for congruent parts. -/
abbrev congruent : Dialogue := ⟨.exact, CongruentAsked⟩

namespace Phrase

/-- Effects that are the same, up to requests for congruent parts. -/
def Paired : (k : Phrase) → k.Effect → k.Effect → Prop
  | param, f, g => ∀ data, RenderM.Paired congruent Eq (f data) (g data)
  | params, f, g => ∀ data, RenderM.Paired congruent Eq (f data) (g data)
  | statement, f, g => ∀ data, RenderM.Paired congruent Eq (f data) (g data)
  | call, f, g => ∀ data, RenderM.Paired congruent Eq (f data) (g data)
  | nodes, f, g => ∀ data, OutputM.Paired congruent Eq (f data) (g data)
  | chain, f, g => ∀ data, OutputM.Paired congruent Eq (f data) (g data)

theorem Paired.refl (k : Phrase) (f : k.Effect) : k.Paired f f := by
  cases k with
  | nodes | chain => exact fun data => .refl CongruentAsked.refl (f data)
  | _ => exact fun data => .refl CongruentAsked.refl (f data)

theorem Paired.of_eq {k : Phrase} {f g : k.Effect} (h : f = g) : k.Paired f g := h ▸ .refl k f

theorem Paired.symm {k : Phrase} {f g : k.Effect} (h : k.Paired f g) : k.Paired g f := by
  cases k with
  | nodes | chain => exact fun data => (h data).symm CongruentAsked.equivalence
  | _ => exact fun data => (h data).symm CongruentAsked.equivalence

theorem Paired.trans {k : Phrase} {f g h : k.Effect} (hfg : k.Paired f g) (hgh : k.Paired g h) :
    k.Paired f h := by
  cases k with
  | nodes | chain => exact fun data => (hfg data).trans CongruentAsked.equivalence (hgh data)
  | _ => exact fun data => (hfg data).trans CongruentAsked.equivalence (hgh data)

end Phrase

section Effects

variable {env : RenderEnv}

-- One equation for each way to put parts together: the effect of the whole is made of the effects
-- of the parts, so that parts of one effect can stand for each other.

theorem effect_group (ps : List Param) :
    Phrase.effect env .param (.group ps) = fun data =>
      Phrase.effect env .params ps data >>= single := rfl

theorem effect_cons (p : Param) (ps : List Param) :
    Phrase.effect env .params (p :: ps) = fun data => do
      let v ← Phrase.effect env .param p data
      let values ← Phrase.effect env .params ps data
      return v :: values := rfl

/-- One value is demanded of an expression and of a group in the same way. -/
theorem effect_statement (hresolver : env.resolver = .context) (ps : List Param) :
    Phrase.effect env .statement ps = fun data =>
      Phrase.effect env .params ps data >>= single := by
  funext data
  change env.atomic ps data = _
  rw [RenderEnv.atomic, hresolver]
  rfl

theorem effect_append (xs ys : List Node) :
    Phrase.effect env .nodes (xs ++ ys) = fun data =>
      Phrase.effect env .nodes xs data >>= fun _ => Phrase.effect env .nodes ys data := by
  funext data
  exact Node.renderAll_append env xs ys data

theorem effect_node (node : Node) :
    Phrase.effect env .nodes [node] = node.render env := by
  funext data
  exact Node.renderAll_singleton env node data

theorem effect_expression (ps : List Param) :
    Phrase.effect env .nodes [.expression ps] = fun data =>
      OutputM.ofRender (Phrase.effect env .statement ps data) >>= env.emit := by
  rw [effect_node]
  funext data
  rw [Node.render]
  rfl

theorem effect_custom (c : TagCall) :
    Phrase.effect env .nodes [.custom c] = fun data =>
      OutputM.ofRender (Phrase.effect env .call c data) >>= env.emit := by
  rw [effect_node]
  funext data
  rw [Node.render]
  rfl

theorem effect_conditional (cs : List Clause) :
    Phrase.effect env .nodes [.conditional cs] = Phrase.effect env .chain cs := by
  rw [effect_node]
  funext data
  rw [Node.render]
  rfl

theorem effect_loop (item path : String) (body : List Node) :
    Phrase.effect env .nodes [.loop item path body] = fun data =>
      OutputM.ofRender (RenderM.ofEval (data.loopItems path)) >>= fun items =>
        Loop.each (fun index v => OutputM.collect
          (Phrase.effect env .nodes body (Loop.scope data item items.length index v))) 0 items := by
  rw [effect_node]
  funext data
  rw [Node.render]
  rfl

theorem effect_clause (ps : List Param) (body : List Node) (rest : List Clause) :
    Phrase.effect env .chain (.mk ps body :: rest) = fun data =>
      OutputM.ofRender (Phrase.effect env .statement ps data) >>= fun v =>
        OutputM.ofRender (RenderM.ofRun v.isTruthy) >>= fun holds =>
          if holds then Phrase.effect env .nodes body data
          else Phrase.effect env .chain rest data := by
  funext data
  change Clause.renderFirst env (.mk ps body :: rest) data = _
  rw [Clause.renderFirst]
  rfl

/-- Parentheses around one parameter do nothing. -/
theorem effect_group_singleton (p : Param) :
    Phrase.effect env .param (.group [p]) = Phrase.effect env .param p := by
  rw [effect_group, effect_cons]
  funext data
  simp only [bind_assoc]
  exact bind_pure _

/-- A statement of one parameter is that parameter. -/
theorem effect_statement_singleton (hresolver : env.resolver = .context) (p : Param) :
    Phrase.effect env .statement [p] = Phrase.effect env .param p := by
  rw [effect_statement hresolver, ← effect_group, effect_group_singleton]

/-- The conditions after a clause that always holds are not looked at. -/
theorem effect_always (hresolver : env.resolver = .context) (body : List Node)
    (rest : List Clause) :
    Phrase.effect env .chain (.always body :: rest) = Phrase.effect env .nodes body := by
  rw [Clause.always, effect_clause, effect_statement_singleton hresolver]
  rfl

theorem effect_cut (hresolver : env.resolver = .context) (chain : List Clause)
    (body : List Node) (rest : List Clause) :
    Phrase.effect env .chain (chain ++ .always body :: rest) =
      Phrase.effect env .chain (chain ++ [.always body]) := by
  induction chain with
  | nil => rw [List.nil_append, List.nil_append, effect_always hresolver, effect_always hresolver]
  | cons clause chain ih =>
    obtain ⟨condition, own⟩ := clause
    rw [List.cons_append, List.cons_append, effect_clause, effect_clause, ih]

theorem paired_self {α : Type} (x : RenderM α) : RenderM.Paired congruent Eq x x :=
  .refl CongruentAsked.refl x

theorem paired_emit_self (v : Value) : OutputM.Paired congruent Eq (env.emit v) (env.emit v) :=
  .refl CongruentAsked.refl _

/-- Tag calls that differ in congruent parameters and bodies. -/
theorem TagCall.paired_invoke (name : String) {ps qs : List Param} {body body' : Option (List Node)}
    (hparams : Congruent .params ps qs) (hbody : Body.Congruent body body') (data : Context) :
    RenderM.Paired congruent Eq (TagCall.invoke data (.mk name ps body))
      (TagCall.invoke data (.mk name qs body')) :=
  .bind_eq (.resolve (CongruentAsked.resolve data hparams)) fun values =>
    .invoke (CongruentAsked.invoke name name values data hbody)

/-- Congruent parts have the same effect, up to requests for congruent parts. -/
theorem Congruent.paired (hresolver : env.resolver = .context) {k : Phrase} {x y : k.Tree}
    (h : Congruent k x y) : k.Paired (k.effect env x) (k.effect env y) := by
  induction h with
  | ungroup p => exact .of_eq (effect_group_singleton p)
  | grouped ps =>
    refine .of_eq ?_
    rw [effect_statement_singleton hresolver, effect_group, effect_statement hresolver]
  | custom c =>
    refine .of_eq ?_
    rw [effect_custom, effect_expression, effect_statement_singleton hresolver]
    rfl
  | splice body rest =>
    exact .of_eq ((effect_conditional _).trans (effect_always hresolver body rest))
  | cut chain body rest =>
    refine .of_eq ?_
    rw [effect_conditional, effect_conditional, effect_cut hresolver]
  | refl k x => exact .refl k _
  | symm _ ih => exact ih.symm
  | trans _ _ ihx ihy => exact ihx.trans ihy
  | group _ ih => exact fun data => .bind_eq (ih data) fun values => paired_self (single values)
  | tag _ ih => exact ih
  | cons _ _ ihhead ihtail =>
    exact fun data => .bind_eq (ihhead data) fun v =>
      .bind_eq (ihtail data) fun values => paired_self (pure (v :: values))
  | statement _ ih =>
    rw [effect_statement hresolver, effect_statement hresolver]
    exact fun data => .bind_eq (ih data) fun values => paired_self (single values)
  | bare name h _ => exact TagCall.paired_invoke name h .none
  | bodied name hparams hbody _ _ => exact TagCall.paired_invoke name hparams (.some hbody)
  | append _ _ ihleft ihright =>
    rw [effect_append, effect_append]
    exact fun data => .bind_eq (ihleft data) fun _ => ihright data
  | expression _ ih =>
    rw [effect_expression, effect_expression]
    exact fun data => .bind_eq (.ofRender (ih data)) paired_emit_self
  | conditional _ ih =>
    rw [effect_conditional, effect_conditional]
    exact ih
  | loop item path _ ih =>
    rw [effect_loop, effect_loop]
    refine fun data => .bind_eq (.ofRender (paired_self _)) fun items => ?_
    have hitems : List.Forall₂ Eq items items := List.forall₂_refl items
    refine paired_each (fun index v _ hv => ?_) hitems 0
    exact hv ▸ (ih _).collect
  | node _ ih =>
    rw [effect_custom, effect_custom]
    exact fun data => .bind_eq (.ofRender (ih data)) paired_emit_self
  | clause _ _ _ ihcondition ihbody ihrest =>
    rw [effect_clause, effect_clause]
    refine fun data => .bind_eq (.ofRender (ihcondition data)) fun v => ?_
    refine .bind_eq (.ofRender (paired_self _)) fun holds => ?_
    cases holds with
    | true => exact ihbody data
    | false => exact ihrest data

/-- What is asked for congruent parts is answered in the same way. -/
theorem answers_congruent (hresolver : env.resolver = .context)
    (htags : ∀ name tag, env.tags.get? name = some tag → tag.BlindToBody) :
    congruent.Answers env.answer env.answer := by
  rintro r r' results ⟨⟩
  case render xs ys data h =>
    rw [RenderEnv.answer_render, RenderEnv.answer_render]
    exact (h.paired hresolver data).collect
  case resolve ps qs data h =>
    change RenderM.Paired congruent Eq (env.resolver env.view ps data)
      (env.resolver env.view qs data)
    rw [hresolver]
    have hpaired : Phrase.params.Paired (Phrase.params.effect env ps)
        (Phrase.params.effect env qs) := h.paired hresolver
    exact hpaired data
  case invoke name own parameters data body body' h =>
    refine env.tags.paired_invoke rfl fun tag htag => ?_
    cases h with
    | none => exact paired_self _
    | @some xs ys h =>
      have hblind := htags name tag htag ⟨⟨own, parameters, data, none⟩, env.view⟩ xs ys
      exact hblind.mono_asked (BodyAsked.congruent h)

end Effects

theorem Stock.blindToBody_box : Tag.BlindToBody Stock.box := fun ctx _ _ =>
  .bind_eq (.render (BodyAsked.body ctx.data)) fun _ => .pure rfl

theorem Stock.blindToBody_relay : Tag.BlindToBody Stock.relay := fun ctx _ _ =>
  .bind_eq (.refl .same (Stock.textParam ctx 0)) fun name =>
    .invoke (BodyAsked.handOver name ctx.toInvocation)

/-- Congruent templates render to the same text or the same error over all data, and the same tasks
run in the same order on the way. The same tags run in the same order as well, since the two are
also alike when each tag notes its name. -/
theorem render_congruent (renderer : Renderer) (hresolver : renderer.resolver = .context)
    (htags : ∀ name tag, renderer.tags.get? name = some tag → tag.BlindToBody)
    {xs ys : List Node} (h : Congruent .nodes xs ys) (data : Context) (userInfo : UserInfo) :
    renderer.render xs data userInfo = renderer.render ys data userInfo ∧
      { renderer with tags := renderer.tags.noting }.render xs data userInfo =
        { renderer with tags := renderer.tags.noting }.render ys data userInfo := by
  have hrender : ∀ tags : TagRegistry,
      (∀ name tag, tags.get? name = some tag → tag.BlindToBody) →
      { renderer with tags }.render xs data userInfo =
        { renderer with tags }.render ys data userInfo := by
    intro tags hblind
    let env : RenderEnv := { renderer := { renderer with tags }, userInfo }
    have hcontext : env.resolver = .context := hresolver
    have hpaired : RenderM.Paired congruent Eq (Node.renderAll env xs data).collect
        (Node.renderAll env ys data).collect := (h.paired hcontext data).collect
    rw [Renderer.render_eq_perform, Renderer.render_eq_perform]
    funext history
    exact (hpaired.perform (answers_congruent hcontext hblind) rfl).eq
  refine ⟨hrender renderer.tags htags, hrender renderer.tags.noting fun name tag htag => ?_⟩
  rw [TagRegistry.get?_noting] at htag
  obtain ⟨own, hown, rfl⟩ := Option.map_eq_some_iff.1 htag
  exact (htags name own hown).noting name

theorem render_congruent_box :
    let renderer : Renderer := { tags := ⟨[("box", Stock.box)]⟩ }
    let xs : List Node :=
      [.conditional [.always [.custom (.mk "box" [.group [.path "x"]] (some [.path "x"]))],
        .mk [] []], .raw "!"]
    let ys : List Node :=
      [.expression [.tag (.mk "box" [.path "x"] (some [.expression [.group [.path "x"]]]))],
        .raw "!"]
    let data : Context := [("x", .int 1)]
    renderer.resolver = .context ∧
      (∀ name tag, renderer.tags.get? name = some tag → tag.BlindToBody) ∧
      Congruent .nodes xs ys ∧
      renderer.render xs data {} = renderer.render ys data {} ∧
      { renderer with tags := renderer.tags.noting }.render xs data {} =
        { renderer with tags := renderer.tags.noting }.render ys data {} := by
  intro renderer xs ys data
  have htags : ∀ name tag, renderer.tags.get? name = some tag → tag.BlindToBody :=
    Entries.of_get? (List.forall_mem_singleton.2 Stock.blindToBody_box)
  have hcall : Congruent .call (.mk "box" [.group [.path "x"]] (some [.path "x"]))
      (.mk "box" [.path "x"] (some [.expression [.group [.path "x"]]])) :=
    .bodied "box" (.cons (.ungroup _) (.refl .params [])) (.expression (.grouped _))
  have hcongruent : Congruent .nodes xs ys :=
    Congruent.append ((Congruent.splice _ _).trans ((Congruent.node hcall).trans (.custom _)))
      (.refl .nodes [.raw "!"])
  exact ⟨rfl, htags, hcongruent, render_congruent renderer rfl htags hcongruent data {}⟩

end TemplateRender
