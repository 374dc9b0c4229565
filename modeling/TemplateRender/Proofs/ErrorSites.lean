import TemplateRender.Proofs.Outcomes
import TemplateRender.Proofs.Walks
import TemplateRender.Stock.Tags

/-!
Where the errors of a render come from. The sites of a template are the places at which a render
can fail on its own: directives, parameter lists that have to give one value, and loops, wherever
they stand, be it in the body of a tag that is a parameter of a condition. Each resolution failure
is one that some site of the template raises (`render_error_site`). A well-formed template has no
site but loops and lists of one parameter, so nothing but a wrong loop path is left
(`render_error_of_wellFormed`).
-/
namespace TemplateRender

/-- A place of a template at which a render can fail. -/
inductive Site where
  /-- An import, extend or export, with its text. -/
  | directive (text : String)
  /-- An expression, a condition or a group, with the number of its parameters. -/
  | single (count : Nat)
  /-- A loop over the array at a path. -/
  | loop (path : String)
deriving DecidableEq

mutual

def Param.sites : Param → List Site
  | .atom _ => []
  | .group params => .single params.length :: Param.sitesAll params
  | .tag call => call.sites

def Param.sitesAll : List Param → List Site
  | [] => []
  | p :: rest => p.sites ++ Param.sitesAll rest

/-- Any number of parameters will do for a tag. -/
def TagCall.sites : TagCall → List Site
  | .mk _ params none => Param.sitesAll params
  | .mk _ params (some body) => Param.sitesAll params ++ Node.sitesAll body

def Node.sites : Node → List Site
  | .raw _ => []
  | .expression params => .single params.length :: Param.sitesAll params
  | .conditional chain => Clause.sitesAll chain
  | .loop _ path body => .loop path :: Node.sitesAll body
  | .custom call => call.sites
  | .importDirective key => [.directive (directiveText "import" key)]
  | .extendDirective key _ => [.directive (directiveText "extend" key)]
  | .exportDirective (.mk key _) => [.directive (directiveText "export" key)]

def Node.sitesAll : List Node → List Site
  | [] => []
  | node :: rest => node.sites ++ Node.sitesAll rest

def Clause.sitesAll : List Clause → List Site
  | [] => []
  | .mk condition body :: rest =>
    .single condition.length ::
      (Param.sitesAll condition ++ (Node.sitesAll body ++ Clause.sitesAll rest))

end

namespace EvalError

/-- The errors of resolving a template. The others are those of tags and of values without a
text. -/
def isResolutionFailure : EvalError → Bool
  | unresolvedDirective _ => true
  | expectedDictionary _ => true
  | expectedArray _ => true
  | emptyParameterStatement => true
  | multipleValues _ => true
  | _ => false

end EvalError

namespace Site

/-- The errors that a site can end a render with. -/
inductive Raises : Site → EvalError → Prop where
  | directive (text : String) : Raises (.directive text) (.unresolvedDirective text)
  | noValue : Raises (.single 0) .emptyParameterStatement
  | manyValues {count : Nat} : 1 < count → Raises (.single count) (.multipleValues count)
  | dictionary {p path : String} : Path.Before p path → Raises (.loop path) (.expectedDictionary p)
  | array (path : String) : Raises (.loop path) (.expectedArray path)

/-- A site that can fail only for what the data hold. -/
def Sound : Site → Prop
  | directive _ => False
  | single count => count = 1
  | loop _ => True

end Site

instance : DecidablePred Site.Sound
  | .directive _ => inferInstanceAs (Decidable False)
  | .single count => inferInstanceAs (Decidable (count = 1))
  | .loop _ => inferInstanceAs (Decidable True)

/-- A resolution failure is raised by one of the sites. -/
def EvalError.ComesFrom (sites : List Site) (e : EvalError) : Prop :=
  e.isResolutionFailure = true → ∃ site ∈ sites, site.Raises e

/-- There are no directives, and each expression, condition and group has one parameter. -/
def Node.WellFormed (nodes : List Node) : Prop := ∀ site ∈ Node.sitesAll nodes, site.Sound

instance (nodes : List Node) : Decidable (Node.WellFormed nodes) :=
  inferInstanceAs (Decidable (∀ site ∈ Node.sitesAll nodes, site.Sound))

/-- The sites of the body of a tag, if there is one. -/
def Body.sites : Option (List Node) → List Site
  | some nodes => Node.sitesAll nodes
  | none => []

theorem TagCall.sites_eq (call : TagCall) :
    call.sites = Param.sitesAll call.params ++ Body.sites call.body := by
  obtain ⟨name, params, body⟩ := call
  cases body with
  | none => exact (List.append_nil _).symm
  | some nodes => rfl

/-- The sites of what is to be rendered or resolved. Those of the parameters of a tag come up when
the parameters are resolved. -/
def Request.sites : Request → List Site
  | render nodes _ => Node.sitesAll nodes
  | resolve params _ => Param.sitesAll params
  | invoke _ call => Body.sites call.body

/-- The request is to render a body, over whatever data, or to hand it over to another tag, or it is
to invoke a tag without a body. -/
def Request.IsFor (body : Option (List Node)) : Request → Prop
  | render nodes _ => body = some nodes
  | resolve _ _ => False
  | invoke _ call => call.body = body ∨ call.body = none

/-- Errors that the tag raises on its own are no resolution failures. Otherwise it passes on the
errors of its body and of tags that it invokes on this body or on none. What else it asks for may
fail in any way. -/
def Tag.RaisesOwn (tag : Tag) : Prop :=
  ∀ (ctx : TagContext) (errors : EvalError → Prop),
    (∀ e, e.isResolutionFailure = false → errors e) →
    RenderM.FailsWith (fun request e => request.IsFor ctx.body → errors e) errors (tag ctx)

namespace Path

/-- A walk that fails names the segments up to the one that is no map, or the whole path. -/
theorem failsWith_itemsFrom (path : String) (data : Context) (walked : List String)
    (segment : String) (rest : List String) :
    EvalM.FailsWith
      (fun e => e = .expectedArray path ∨ ∃ n < rest.length,
        e = .expectedDictionary (join (walked ++ segment :: rest.take n)))
      (itemsFrom path data walked segment rest) := by
  induction rest generalizing data walked segment with
  | nil =>
    refine (EvalM.Meets.lift _).bind fun found _ => ?_
    split
    · exact .pure trivial
    · exact .throw (Or.inl rfl)
  | cons next rest ih =>
    refine (EvalM.Meets.lift _).bind fun found _ => ?_
    split
    next entries =>
      refine (ih entries (walked ++ [segment]) next).imp ?_
      rintro e (rfl | ⟨n, hn, rfl⟩)
      · exact Or.inl rfl
      · refine Or.inr ⟨n + 1, Nat.succ_lt_succ hn, ?_⟩
        rw [List.append_assoc, List.singleton_append, List.take_succ_cons]
    next => exact .throw (Or.inr ⟨0, Nat.zero_lt_succ _, rfl⟩)

end Path

theorem failsWith_loopItems (data : Context) (path : String) :
    EvalM.FailsWith (Site.loop path).Raises (data.loopItems path) := by
  refine (Path.failsWith_itemsFrom path data [] _ _).imp ?_
  rintro e (rfl | ⟨n, hn, rfl⟩)
  · exact .array path
  · exact .dictionary (Path.before_join_take hn)

section Render

variable {env : RenderEnv} {sites : List Site} {answerable : Answerable} {e : EvalError}

theorem Site.Raises.comesFrom {site : Site} (h : site.Raises e) (hsite : site ∈ sites) :
    e.ComesFrom sites := fun _ => ⟨site, hsite, h⟩

theorem EvalError.comesFrom_of_other (h : e.isResolutionFailure = false) : e.ComesFrom sites :=
  fun hfailure => absurd (h.symm.trans hfailure) Bool.false_ne_true

theorem EvalError.ComesFrom.mono {more : List Site} (h : e.ComesFrom sites)
    (hsites : sites ⊆ more) : e.ComesFrom more := by
  intro hfailure
  obtain ⟨site, hsite, hraises⟩ := h hfailure
  exact ⟨site, hsites hsite, hraises⟩

/-- Each request may be answered the errors that come from its sites. -/
def fromSites : Answerable := fun request e => e.ComesFrom request.sites

theorem failsWith_single {values : List Value} (hsite : .single values.length ∈ sites) :
    RenderM.FailsWith answerable (EvalError.ComesFrom sites) (single values) := by
  match values with
  | [] => exact .throw (Site.Raises.noValue.comesFrom hsite)
  | [_] => exact .pure trivial
  | _ :: _ :: rest => exact .throw ((Site.Raises.manyValues (by simp)).comesFrom hsite)

theorem TagCall.failsWith_invoke (call : TagCall) (data : Context) (h : call.sites ⊆ sites) :
    RenderM.FailsWith fromSites (EvalError.ComesFrom sites) (call.invoke data) := by
  rw [TagCall.sites_eq] at h
  obtain ⟨hparams, hbody⟩ := List.append_subset.1 h
  refine RenderM.Meets.bind (.resolve fun e he => EvalError.ComesFrom.mono he hparams) fun _ _ => ?_
  exact .invoke fun e he => EvalError.ComesFrom.mono he hbody

theorem failsWith_emit_comesFrom (env : RenderEnv) (v : Value) :
    OutputM.FailsWith fromSites (EvalError.ComesFrom sites) (env.emit v) :=
  OutputM.failsWith_emit env v fun _ => EvalError.comesFrom_of_other rfl

mutual

theorem Param.failsWith_resolve : ∀ (p : Param) (data : Context), p.sites ⊆ sites →
    RenderM.FailsWith fromSites (EvalError.ComesFrom sites) (p.resolve data)
  | .atom a, data, _ => .ofRun (a.resolve data)
  | .group params, data, h => by
    obtain ⟨hhere, hparams⟩ := List.cons_subset.1 h
    refine (Param.meets_resolveAll params data hparams).bind fun values hlength => ?_
    exact failsWith_single (hlength ▸ hhere)
  | .tag call, data, h => call.failsWith_invoke data h

/-- There is one value for each parameter. -/
theorem Param.meets_resolveAll : ∀ (params : List Param) (data : Context),
    Param.sitesAll params ⊆ sites →
      RenderM.Meets fromSites (fun values => values.length = params.length)
        (EvalError.ComesFrom sites) (Param.resolveAll data params)
  | [], _, _ => .pure rfl
  | p :: rest, data, h => by
    obtain ⟨hhead, htail⟩ := List.append_subset.1 h
    refine (Param.failsWith_resolve p data hhead).bind fun v _ => ?_
    refine (Param.meets_resolveAll rest data htail).bind fun values hlength => ?_
    exact .pure (congrArg (· + 1) hlength)

end

theorem RenderEnv.failsWith_atomic (hresolver : env.resolver = .context) (params : List Param)
    (data : Context) (hsite : .single params.length ∈ sites) (h : Param.sitesAll params ⊆ sites) :
    RenderM.FailsWith fromSites (EvalError.ComesFrom sites) (env.atomic params data) := by
  rw [RenderEnv.atomic, hresolver]
  refine (Param.meets_resolveAll params data h).bind fun values hlength => ?_
  exact failsWith_single (hlength ▸ hsite)

-- The recursion is that of the evaluator, for all parts of one template whose sites are fixed.
mutual

theorem Node.failsWith_render (hresolver : env.resolver = .context) : ∀ (node : Node)
    (data : Context), node.sites ⊆ sites →
      OutputM.FailsWith fromSites (EvalError.ComesFrom sites) (node.render env data)
  | .raw text, _, _ => by
    rw [Node.render]
    exact .write text
  | .expression params, data, h => by
    obtain ⟨hhere, hparams⟩ := List.cons_subset.1 h
    have hatomic := RenderEnv.failsWith_atomic hresolver params data hhere hparams
    rw [Node.render]
    exact .bind (.ofRender hatomic) (failsWith_emit_comesFrom env)
  | .conditional chain, data, h => by
    rw [Node.render]
    exact Clause.failsWith_renderFirst hresolver chain data h
  | .loop item path body, data, h => by
    obtain ⟨hhere, hbody⟩ := List.cons_subset.1 h
    have hitems := (failsWith_loopItems data path).imp fun _ hraises => hraises.comesFrom hhere
    rw [Node.render]
    refine .bind (.ofRender (.ofEval hitems)) fun items => ?_
    refine OutputM.failsWith_each (fun index v => ?_) items 0
    exact (Node.failsWith_renderAll hresolver body _ hbody).collect
  | .custom call, data, h => by
    rw [Node.render]
    exact .bind (.ofRender (call.failsWith_invoke data h)) (failsWith_emit_comesFrom env)
  | .importDirective key, _, h => by
    rw [Node.render]
    exact .throw ((Site.Raises.directive _).comesFrom (h (List.mem_singleton_self _)))
  | .extendDirective key _, _, h => by
    rw [Node.render]
    exact .throw ((Site.Raises.directive _).comesFrom (h (List.mem_singleton_self _)))
  | .exportDirective (.mk key _), _, h => by
    rw [Node.render]
    exact .throw ((Site.Raises.directive _).comesFrom (h (List.mem_singleton_self _)))

theorem Node.failsWith_renderAll (hresolver : env.resolver = .context) : ∀ (nodes : List Node)
    (data : Context), Node.sitesAll nodes ⊆ sites →
      OutputM.FailsWith fromSites (EvalError.ComesFrom sites) (Node.renderAll env nodes data)
  | [], _, _ => by
    rw [Node.renderAll]
    exact .pure ()
  | node :: rest, data, h => by
    obtain ⟨hhead, htail⟩ := List.append_subset.1 h
    rw [Node.renderAll]
    refine .bind (Node.failsWith_render hresolver node data hhead) fun _ => ?_
    exact Node.failsWith_renderAll hresolver rest data htail

theorem Clause.failsWith_renderFirst (hresolver : env.resolver = .context) :
    ∀ (chain : List Clause) (data : Context), Clause.sitesAll chain ⊆ sites →
      OutputM.FailsWith fromSites (EvalError.ComesFrom sites) (Clause.renderFirst env chain data)
  | [], _, _ => by
    rw [Clause.renderFirst]
    exact .pure ()
  | .mk condition body :: rest, data, h => by
    obtain ⟨hhere, hparts⟩ := List.cons_subset.1 h
    obtain ⟨hcondition, hparts⟩ := List.append_subset.1 hparts
    obtain ⟨hbody, hrest⟩ := List.append_subset.1 hparts
    have hatomic := RenderEnv.failsWith_atomic hresolver condition data hhere hcondition
    rw [Clause.renderFirst]
    refine .bind (.ofRender hatomic) fun v => ?_
    refine .bind (.ofRender (.ofRun v.isTruthy)) fun holds => ?_
    split
    · exact Node.failsWith_renderAll hresolver body data hbody
    · exact Clause.failsWith_renderFirst hresolver rest data hrest

end

theorem TagRegistry.failsWith_invoke {registry : TagRegistry}
    (htags : ∀ name tag, registry.get? name = some tag → tag.RaisesOwn) (name : String)
    (ctx : TagContext) :
    RenderM.FailsWith fromSites (EvalError.ComesFrom (Body.sites ctx.body))
      (registry.invoke name ctx) := by
  unfold TagRegistry.invoke
  cases htag : registry.get? name with
  | none => exact .pure trivial
  | some tag =>
    have hown := htags name tag htag ctx (EvalError.ComesFrom (Body.sites ctx.body))
      fun e => EvalError.comesFrom_of_other
    intro history
    refine (hown history).mono fun request e he hrequest => ?_
    cases request with
    | render nodes data =>
      have hbody : ctx.body = some nodes := hrequest
      rw [hbody]
      exact he
    | resolve params data => exact hrequest.elim
    | invoke other call =>
      have he : e.ComesFrom (Body.sites call.body) := he
      rcases hrequest with hbody | hbody
      · exact hbody ▸ he
      · rw [hbody] at he
        exact he.mono (List.nil_subset _)

/-- Every request is answered no other errors than it may be. -/
theorem RenderEnv.failsWith_answer (hresolver : env.resolver = .context)
    (htags : ∀ name tag, env.tags.get? name = some tag → tag.RaisesOwn) (request : Request) :
    RenderM.FailsWith fromSites (fromSites request) (env.answer request) := by
  cases request with
  | render nodes data =>
    rw [RenderEnv.answer_render]
    exact (Node.failsWith_renderAll hresolver nodes data (List.Subset.refl _)).collect
  | resolve params data =>
    change RenderM.FailsWith _ _ (env.resolver env.view params data)
    rw [hresolver]
    exact (Param.meets_resolveAll params data (List.Subset.refl _)).failsWith
  | invoke tag call => exact TagRegistry.failsWith_invoke htags tag (env.tagContext call)

variable {renderer : Renderer} {nodes : List Node} {data : Context} {userInfo : UserInfo}
  {before after : History}

/-- A resolution failure is raised by a site of the template. -/
theorem render_error_site (hresolver : renderer.resolver = .context)
    (htags : ∀ name tag, renderer.tags.get? name = some tag → tag.RaisesOwn)
    (hfail : (renderer.render nodes data userInfo).run before = some (.error e, after)) :
    e.ComesFrom (Node.sitesAll nodes) := by
  let env : RenderEnv := { renderer, userInfo }
  have hcontext : env.resolver = .context := hresolver
  have hnodes := (Node.failsWith_renderAll hcontext nodes data (List.Subset.refl _)).collect
  rw [Renderer.render_eq_perform] at hfail
  exact hnodes.perform (RenderEnv.failsWith_answer hcontext htags) hfail

theorem Site.Sound.loop_of_raises {site : Site} (hsound : site.Sound) (hraises : site.Raises e) :
    ∃ path, site = .loop path ∧
      ((∃ p, e = .expectedDictionary p ∧ Path.Before p path) ∨ e = .expectedArray path) := by
  cases hraises with
  | directive text => exact hsound.elim
  | noValue => cases hsound
  | manyValues hmany => exact absurd hsound (Nat.ne_of_gt hmany)
  | dictionary hp => exact ⟨_, rfl, Or.inl ⟨_, rfl, hp⟩⟩
  | array path => exact ⟨path, rfl, Or.inr rfl⟩

end Render

/-- A render of a well-formed template meets no directive and no list without a single value. Where
it expects a map, it names an initial part of the path of a loop in the template, cut before a dot,
and where it expects an array, it names the whole path of one. -/
theorem render_error_of_wellFormed (renderer : Renderer) (hresolver : renderer.resolver = .context)
    (htags : ∀ name tag, renderer.tags.get? name = some tag → tag.RaisesOwn)
    (nodes : List Node) (hnodes : Node.WellFormed nodes) (data : Context) (userInfo : UserInfo)
    (history : History) :
    let outcome := ((renderer.render nodes data userInfo).run history).map Prod.fst
    (∀ directive, outcome ≠ some (.error (.unresolvedDirective directive))) ∧
      outcome ≠ some (.error .emptyParameterStatement) ∧
      (∀ count, outcome ≠ some (.error (.multipleValues count))) ∧
      (∀ p, outcome = some (.error (.expectedDictionary p)) →
        ∃ path, .loop path ∈ Node.sitesAll nodes ∧ Path.Before p path) ∧
      ∀ path, outcome = some (.error (.expectedArray path)) →
        .loop path ∈ Node.sitesAll nodes := by
  intro outcome
  have hloop : ∀ e, outcome = some (.error e) → e.isResolutionFailure = true →
      ∃ path, .loop path ∈ Node.sitesAll nodes ∧
        ((∃ p, e = .expectedDictionary p ∧ Path.Before p path) ∨ e = .expectedArray path) := by
    intro e hfail hkind
    obtain ⟨⟨_, after⟩, hrun, rfl⟩ := Option.map_eq_some_iff.1 hfail
    obtain ⟨site, hsite, hraises⟩ := render_error_site hresolver htags hrun hkind
    obtain ⟨path, rfl, hblamed⟩ := (hnodes site hsite).loop_of_raises hraises
    exact ⟨path, hsite, hblamed⟩
  refine ⟨fun directive hfail => ?_, fun hfail => ?_, fun count hfail => ?_, fun p hfail => ?_,
    fun path hfail => ?_⟩
  all_goals obtain ⟨owner, hmem, ⟨q, hq, hbefore⟩ | hwhole⟩ := hloop _ hfail rfl
  case refine_4.inl =>
    obtain rfl := EvalError.expectedDictionary.inj hq
    exact ⟨owner, hmem, hbefore⟩
  case refine_5.inr =>
    obtain rfl := EvalError.expectedArray.inj hwhole
    exact hmem
  all_goals contradiction

theorem Stock.raisesOwn_box : Tag.RaisesOwn Stock.box := by
  rintro ⟨⟨name, parameters, data, body⟩, env⟩ errors hown
  cases body with
  | none => exact .throw (hown (.missingBody name) rfl)
  | some nodes =>
    have hbody : RenderM.FailsWith (fun request e => request.IsFor (some nodes) → errors e) errors
        (RenderM.render nodes data) := .render fun e he => he rfl
    exact hbody.bind fun text _ => .pure trivial

theorem Stock.raisesOwn_relay : Tag.RaisesOwn Stock.relay := by
  intro ctx errors hown
  have hname : RenderM.FailsWith (fun request e => request.IsFor ctx.body → errors e) errors
      (Stock.textParam ctx 0) := by
    refine RenderM.Meets.bind (.ofRun _) fun found _ => ?_
    split
    · exact .pure trivial
    · exact .throw (hown _ rfl)
  exact hname.bind fun name _ => .invoke fun e he => he (Or.inl rfl)

/-- A loop in the body of a tag that another tag hands over to, in a parameter of a condition. -/
def relayed : List Node :=
  [.conditional
    [.mk [.tag (.mk "relay" [.atom (.text "box")] (some [.loop "x" "a.b" [.raw "!"]]))] []]]

theorem render_error_of_wellFormed_relayed :
    let renderer : Renderer := { tags := ⟨[("box", Stock.box), ("relay", Stock.relay)]⟩ }
    renderer.resolver = .context ∧
      (∀ name tag, renderer.tags.get? name = some tag → tag.RaisesOwn) ∧
      Node.WellFormed relayed ∧
      ((renderer.render relayed [("a", .int 1)] {}).run []).map Prod.fst =
        some (.error (.expectedDictionary "a")) ∧
      ∃ path, .loop path ∈ Node.sitesAll relayed ∧ Path.Before "a" path := by
  intro renderer
  have htags : ∀ name tag, renderer.tags.get? name = some tag → tag.RaisesOwn :=
    Entries.of_get? (List.forall_mem_cons.2
      ⟨Stock.raisesOwn_box, List.forall_mem_singleton.2 Stock.raisesOwn_relay⟩)
  have hnodes : Node.WellFormed relayed := by decide
  have hfail : ((renderer.render relayed [("a", .int 1)] {}).run []).map Prod.fst =
      some (.error (.expectedDictionary "a")) := by
    have hrun : (renderer.render relayed [("a", .int 1)] {}).run [] =
        some (.error (.expectedDictionary "a"), []) := by
      rw [Renderer.render_eq_perform]
      exact Step.perform_eq_some_iff.2 ⟨4, by with_unfolding_all rfl⟩
    rw [hrun]
    rfl
  refine ⟨rfl, htags, hnodes, hfail, ?_⟩
  have herrors := render_error_of_wellFormed renderer rfl htags relayed hnodes [("a", .int 1)] {} []
  exact herrors.2.2.2.1 "a" hfail

end TemplateRender
