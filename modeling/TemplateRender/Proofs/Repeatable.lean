import TemplateRender.Proofs.Everywhere
import TemplateRender.Proofs.Related
import TemplateRender.Stock.Tags

/-!
Rendering again. Where the lazy values of the data keep their answers and tags and resolver have
nothing to go by but what they are given, a render does the same whatever ran before it: the
renders that start at two points of time are a simulation along `Value.Alike`, the values that
nothing that happens since then tells apart. So each call on an evaluator gives what the first call
on a fresh one gives, whether the calls before it succeeded or failed part way
(`render_repeatable`).
-/
namespace TemplateRender

/-- Histories that have gone on alike since two points of time. -/
def Pairing.since (before before' : History) : Pairing where
  history left right := ∃ events, left = events ++ before ∧ right = events ++ before'
  released _ := False

open Pairing

variable {before before' : History}

theorem since_refl (before before' : History) : (since before before').history before before' :=
  ⟨[], rfl, rfl⟩

theorem paired_record_since (event : Event) :
    RunM.Paired (since before before') (since before before').history (record event)
      (record event) := by
  rintro left right ⟨events, rfl, rfl⟩
  have hafter : (since before before').history (event :: (events ++ before))
      (event :: (events ++ before')) := ⟨event :: events, rfl, rfl⟩
  exact ⟨⟨events, rfl, rfl⟩, hafter⟩

namespace Value

/-- The same value, but for lazy values. These run the same task and have answers that are alike
again, at equal distance from the two points of time. -/
inductive Alike (before before' : History) : Value → Value → Prop where
  | bool (b : Bool) : Alike before before' (bool b) (bool b)
  | int (n : Int64) : Alike before before' (int n) (int n)
  | double (d : Double) : Alike before before' (double d) (double d)
  | str (text : String) : Alike before before' (str text) (str text)
  | bytes (data : List UInt8) : Alike before before' (bytes data) (bytes data)
  | nil (declared : ValueType) : Alike before before' (nil declared) (nil declared)
  | array {xs ys : List Value} : xs.length = ys.length →
      (∀ {x y}, (x, y) ∈ xs.zip ys → Alike before before' x y) →
      Alike before before' (array xs) (array ys)
  | map {xs ys : Entries Value} : xs.length = ys.length →
      (∀ {p q}, (p, q) ∈ xs.zip ys → p.1 = q.1) →
      (∀ {p q}, (p, q) ∈ xs.zip ys → Alike before before' p.2 q.2) →
      Alike before before' (map xs) (map ys)
  | present {v w : Value} (declared : ValueType) : Alike before before' v w →
      Alike before before' (present v declared) (present w declared)
  | lazy {compute compute' : History → Value} (task : Task) :
      (∀ events, Alike before before' (compute (events ++ before)) (compute' (events ++ before'))) →
      Alike before before' (lazy task compute) (lazy task compute')

theorem alike_array_iff {xs ys : List Value} :
    Alike before before' (array xs) (array ys) ↔ List.Forall₂ (Alike before before') xs ys := by
  rw [List.forall₂_iff_zip]
  constructor
  · intro h
    cases h with
    | array hlength hitems => exact ⟨hlength, hitems⟩
  · rintro ⟨hlength, hitems⟩
    exact .array hlength hitems

theorem alike_map_iff {xs ys : Entries Value} :
    Alike before before' (map xs) (map ys) ↔ Context.Related (Alike before before') xs ys := by
  rw [Context.Related, List.forall₂_iff_zip]
  constructor
  · intro h
    cases h with
    | map hlength hkeys hvalues => exact ⟨hlength, fun hmem => ⟨hkeys hmem, hvalues hmem⟩⟩
  · rintro ⟨hlength, hentries⟩
    exact .map hlength (fun hmem => (hentries hmem).1) (fun hmem => (hentries hmem).2)

/-- Where answers never change, time makes no difference. -/
theorem alike_self {v : Value} (h : Everywhere Steady v) : Alike before before' v v := by
  induction h with
  | @intro v here _ ih =>
    cases v with
    | bool b => exact .bool b
    | int n => exact .int n
    | double d => exact .double d
    | str text => exact .str text
    | bytes data => exact .bytes data
    | nil declared => exact .nil declared
    | array items =>
      rw [alike_array_iff, List.forall₂_same]
      exact fun v hv => ih v (.item hv)
    | map entries =>
      rw [alike_map_iff, Context.Related, List.forall₂_same]
      exact fun pair hpair => ⟨rfl, ih pair.2 (.entry hpair)⟩
    | present inner declared => exact .present declared (ih inner (.inner inner declared))
    | lazy task compute =>
      refine .lazy task fun events => ?_
      rw [here (events ++ before) (events ++ before')]
      exact ih _ (.result task compute _)

namespace Alike

variable {v w : Value}

theorem type_eq (h : Alike before before' v w) : v.type = w.type := by
  cases h <;> rfl

theorem isLazy_eq (h : Alike before before' v w) : v.isLazy = w.isLazy := by
  cases h <;> rfl

theorem text? (h : Alike before before' v w) (format : FormatConfig) :
    RunM.Paired (since before before') Eq (v.text? format) (w.text? format) := by
  induction h with
  | array hlength _ ih =>
    have hitems := paired_itemTexts (List.forall₂_iff_zip.2 ⟨hlength, ih⟩)
    exact .bind_eq hitems fun _ => .pure rfl
  | map hlength hkeys _ ih =>
    have hentries := paired_entryTexts (List.forall₂_iff_zip.2 ⟨hlength, fun {p q} hmem =>
      And.intro (hkeys hmem) (ih hmem)⟩)
    exact .bind_eq hentries fun _ => .pure rfl
  | present _ _ ih => exact ih
  | lazy task hresult ih =>
    refine .bind (paired_record_since _) ?_
    rintro _ _ ⟨events, rfl, rfl⟩
    simp only [(hresult events).isLazy_eq]
    split
    · exact .pure rfl
    · exact ih events
  | _ => exact .pure rfl

theorem outputText? (h : Alike before before' v w) (format : FormatConfig) :
    RunM.Paired (since before before') Eq (v.outputText? format) (w.outputText? format) := by
  have htext := h.text? format
  cases h with
  | bytes data => exact .pure rfl
  | _ => exact htext

theorem forced (h : Alike before before' v w) :
    RunM.Paired (since before before') (Opened (Alike before before')) v.forced w.forced := by
  induction h with
  | bool b => exact .pure (.bool b)
  | int n => exact .pure (.int n)
  | double d => exact .pure (.double d)
  | str text => exact .pure (.str text)
  | bytes data => exact .pure (.bytes data)
  | nil declared => exact .pure (.nil declared)
  | array hlength hitems _ => exact .pure (.array (alike_array_iff.1 (.array hlength hitems)))
  | map hlength hkeys hvalues _ =>
    exact .pure (.map (alike_map_iff.1 (.map hlength hkeys hvalues)))
  | present _ _ ih => exact ih
  | lazy task _ ih =>
    refine .bind (paired_record_since _) ?_
    rintro _ _ ⟨events, rfl, rfl⟩
    exact ih events

end Alike

theorem indistinct_alike : Indistinct (since before before') (Alike before before') where
  bool := .bool
  int := .int
  double := .double
  str := .str
  nil := .nil
  map hentries := alike_map_iff.2 hentries
  forced h := h.forced

end Value

/-- Contexts that nothing since the two points of time tells apart. -/
def Context.Alike (before before' : History) : Context → Context → Prop :=
  Context.Related (Value.Alike before before')

theorem Context.alike_self {data : Context}
    (h : ∀ key v, (key, v) ∈ data → Value.Everywhere Value.Steady v) :
    Context.Alike before before' data data := by
  rw [Context.Alike, Context.Related, List.forall₂_same]
  exact fun pair hpair => ⟨rfl, Value.alike_self (h pair.1 pair.2 hpair)⟩

/-- Contexts and values that nothing since the two points of time tells apart. -/
def Likeness.since (before before' : History) : Likeness :=
  .ofRelated (.since before before') (Value.Alike before before') (Value.Alike before before') id

/-- The tag has nothing to go by but its invocation and what it can read of the render: on two
invocations that are alike, however much ran before each of them, it asks for the same and does the
same. -/
def Tag.FromContext (tag : Tag) : Prop :=
  ∀ (before before' : History) (env : EnvView) {call call' : Invocation},
    Invocation.Alike (.since before before') call call' →
    RenderM.Paired (Likeness.since before before').dialogue (Value.Alike before before')
      (tag { call with env }) (tag { call' with env })

/-- The resolver has nothing to go by but the parameters, the data and what it can read of the
render. -/
def Resolver.FromArguments (resolver : Resolver) : Prop :=
  ∀ (before before' : History) (env : EnvView) (params : List Param) {data data' : Context},
    Context.Alike before before' data data' →
    RenderM.Paired (Likeness.since before before').dialogue
      (List.Forall₂ (Value.Alike before before')) (resolver env params data)
      (resolver env params data')

theorem Resolver.fromArguments_context : Resolver.FromArguments .context :=
  fun _ _ _ params _ _ hdata => (Value.indistinct_alike.atoms id).resolveAll params hdata

theorem Stock.fromContext_box : Tag.FromContext Stock.box := by
  rintro before before' env ⟨name, parameters, data, body⟩ ⟨_, parameters', data', _⟩
    ⟨rfl, _, hdata, rfl⟩
  cases body with
  | none => exact .throw (.missingBody name)
  | some nodes =>
    exact .bind_eq (.render (Likeness.Asked.render nodes hdata)) fun text => .pure (.str _)

section Requirements

variable {L : Likeness} {call call' : Invocation} {env : EnvView}

theorem Invocation.Alike.requireParameterCount (h : Invocation.Alike L call call')
    (expected : Nat) :
    RenderM.Paired L.dialogue Eq
      (TagContext.requireParameterCount { call with env } expected)
      (TagContext.requireParameterCount { call' with env } expected) := by
  unfold TagContext.requireParameterCount
  simp only [h.parameters.length_eq, h.name]
  split
  · exact .pure rfl
  · exact .throw _

theorem Invocation.Alike.param (h : Invocation.Alike L call call')
    (hnil : L.parameter .trueNil .trueNil) (i : Nat) :
    L.parameter (Stock.param { call with env } i) (Stock.param { call' with env } i) := by
  have hparameters := h.parameters
  unfold Stock.param
  generalize call.parameters = parameters at hparameters ⊢
  generalize call'.parameters = parameters' at hparameters ⊢
  induction hparameters generalizing i with
  | nil => exact hnil
  | cons hhead _ ih =>
    cases i with
    | zero => exact hhead
    | succ i => exact ih i

end Requirements

/-- What the tag returns is made anew on each invocation. -/
theorem Stock.fromContext_later : Tag.FromContext Stock.later := by
  intro before before' env call call' hcall
  refine .bind_eq (hcall.requireParameterCount 1) fun _ => ?_
  have hparam : Value.Alike before before' (Stock.param { call with env } 0)
    (Stock.param { call' with env } 0) := hcall.param (.nil _) 0
  simp only [hparam.type_eq]
  exact .pure (.lazy _ fun _ => hparam)

/-- Contexts and values that are alike since two points of time. -/
def Simulation.ofRepeats {env : RenderEnv} (hresolver : env.resolver.FromArguments)
    (htags : ∀ name tag, env.tags.get? name = some tag → tag.FromContext)
    (before before' : History) : Simulation env env :=
  Value.indistinct_alike.simulation id
    (fun hv =>
      paired_emit_of_text env (congrArg ValueType.name hv.type_eq) (hv.outputText? env.format))
    (fun params _ _ hdata => hresolver before before' env.view params hdata)
    fun name tag htag _ _ hcall => htags name tag htag before before' env.view hcall

theorem Pairing.Agree.since {outcome outcome' : Except EvalError String × History}
    (h : (since before before').Agree Eq outcome outcome') :
    outcome.1 = outcome'.1 ∧
      ∃ events, outcome.2 = events ++ before ∧ outcome'.2 = events ++ before' := by
  cases h with
  | ok hab hafter => exact ⟨congrArg Except.ok hab, hafter⟩
  | error e hafter => exact ⟨rfl, hafter⟩

namespace Evaluator

/-- The evaluator after a number of renders. -/
def rerender : Nat → Evaluator → PartialM Evaluator
  | 0, evaluator => return evaluator
  | n + 1, evaluator => do
    let (_, used) ← evaluator.render
    rerender n used

/-- A render leaves nothing behind but a cursor and an output. -/
theorem exists_left_of_render {evaluator left : Evaluator} {result : Except EvalError String}
    {before after : History} (h : evaluator.render before = some ((result, left), after)) :
    ∃ offset output, left = { evaluator with offset, output } := by
  have hleft : (Prod.map id rewound <$> evaluator.render) before =
      some ((result, left.rewound), after) := PartialM.map_eq_some_iff.2 ⟨_, h, rfl⟩
  rw [render, ← Program.perform_map, program_rewound, Program.perform_map] at hleft
  obtain ⟨⟨outcome, output⟩, -, hfinish⟩ := PartialM.map_eq_some_iff.1 hleft
  have hrewound : ∃ output, left.rewound = { evaluator.rewound with output } := by
    cases outcome with
    | ok => exact ⟨"", (congrArg Prod.snd hfinish).symm⟩
    | error e => exact ⟨output, (congrArg Prod.snd hfinish).symm⟩
  obtain ⟨output, hrewound⟩ := hrewound
  exact ⟨left.offset, output, congrArg (fun other => { other with offset := left.offset }) hrewound⟩

/-- What a render gives does not depend on what an earlier one has left behind. -/
theorem fst_render_congr (evaluator : Evaluator) (offset : Nat) (output : String) :
    Prod.fst <$> render { evaluator with offset, output } = Prod.fst <$> evaluator.render := by
  rw [fst_render, fst_render, text_eq_collect, text_eq_collect]

end Evaluator

section Repeats

variable {env : RenderEnv} {nodes : List Node} {data : Context}

/-- Neither what ran before nor the cursor and the output that an earlier render left behind make a
difference. -/
theorem outcomes_since (hresolver : env.resolver.FromArguments)
    (htags : ∀ name tag, env.tags.get? name = some tag → tag.FromContext)
    (hdata : ∀ key v, (key, v) ∈ data → Value.Everywhere Value.Steady v) (nodes : List Node)
    (offset : Nat) (output : String) (before before' : History) :
    (since before before').Outcomes Eq
      ((Prod.fst <$> Evaluator.render { nodes, data, env }) before)
      ((Prod.fst <$> Evaluator.render { nodes, data, env, offset, output }) before') := by
  let S := Simulation.ofRepeats hresolver htags before before'
  have hnodes := S.renderAll nodes (Context.alike_self hdata)
  rw [Evaluator.fst_render, Evaluator.fst_render, Evaluator.text_eq_collect,
    Evaluator.text_eq_collect]
  exact hnodes.collect.perform S.answers (since_refl before before')

theorem exists_render_of_first (hresolver : env.resolver.FromArguments)
    (htags : ∀ name tag, env.tags.get? name = some tag → tag.FromContext)
    (hdata : ∀ key v, (key, v) ∈ data → Value.Everywhere Value.Steady v)
    {result : Except EvalError String} {left : Evaluator} {before after : History}
    (hfirst : Evaluator.render { nodes, data, env } before = some ((result, left), after))
    (offset : Nat) (output : String) (before' : History) :
    ∃ again events, Evaluator.render { nodes, data, env, offset, output } before' =
      some ((result, again), events ++ before') ∧ after = events ++ before := by
  have houtcomes := outcomes_since hresolver htags hdata nodes offset output before before'
  rw [PartialM.map_eq_some_iff.2 ⟨_, hfirst, rfl⟩] at houtcomes
  generalize hsecond : (Prod.fst <$> Evaluator.render _) before' = ending at houtcomes
  cases houtcomes with
  | released _ _ hreleased => exact hreleased.elim
  | @agree _ outcome' hagree =>
    obtain ⟨rfl, events, hafter, hafter'⟩ := hagree.since
    obtain ⟨⟨_, again⟩, hrun, rfl⟩ := PartialM.map_eq_some_iff.1 hsecond
    exact ⟨again, events, hafter' ▸ hrun, hafter⟩

theorem exists_rerender_of_first (hresolver : env.resolver.FromArguments)
    (htags : ∀ name tag, env.tags.get? name = some tag → tag.FromContext)
    (hdata : ∀ key v, (key, v) ∈ data → Value.Everywhere Value.Steady v)
    {ending : (Except EvalError String × Evaluator) × History} {before : History}
    (hfirst : Evaluator.render { nodes, data, env } before = some ending) (n : Nat) (offset : Nat)
    (output : String) (before' : History) :
    ∃ offset' output' reached, Evaluator.rerender n { nodes, data, env, offset, output } before' =
      some ({ nodes, data, env, offset := offset', output := output' }, reached) := by
  induction n generalizing offset output before' with
  | zero => exact ⟨offset, output, before', rfl⟩
  | succ n ih =>
    obtain ⟨⟨result, left⟩, after⟩ := ending
    obtain ⟨again, events, hrender, _⟩ :=
      exists_render_of_first hresolver htags hdata hfirst offset output before'
    obtain ⟨offset', output', rfl⟩ := Evaluator.exists_left_of_render hrender
    obtain ⟨offset'', output'', reached, hrest⟩ := ih offset' output' (events ++ before')
    refine ⟨offset'', output'', reached, ?_⟩
    change (Evaluator.render _ before' >>= fun ((_, used), after) => _) = _
    rw [hrender]
    exact hrest

end Repeats

/-- After any number of renders, successful or not, an evaluator still has its data, and the next
render gives the result of the first one of a fresh evaluator and runs the same tasks. If the first
one does not come to an end, then no render does. -/
theorem render_repeatable (env : RenderEnv) (hresolver : env.resolver.FromArguments)
    (htags : ∀ name tag, env.tags.get? name = some tag → tag.FromContext)
    (nodes : List Node) (data : Context)
    (hdata : ∀ key v, (key, v) ∈ data → Value.Everywhere Value.Steady v)
    (n : Nat) (history other : History) :
    let fresh : Evaluator := { nodes, data, env }
    (∀ result left after, fresh.render other = some ((result, left), after) →
      ∃ used before again events, fresh.rerender n history = some (used, before) ∧
        used.render before = some ((result, again), events ++ before) ∧
        again.data = data ∧ after = events ++ other) ∧
      (fresh.render other = none → fresh.rerender (n + 1) history = none) := by
  intro fresh
  constructor
  · intro result left after hfirst
    obtain ⟨offset, output, before, hused⟩ :=
      exists_rerender_of_first hresolver htags hdata hfirst n 0 "" history
    obtain ⟨again, events, hrender, hafter⟩ :=
      exists_render_of_first hresolver htags hdata hfirst offset output before
    obtain ⟨_, _, rfl⟩ := Evaluator.exists_left_of_render hrender
    exact ⟨_, before, _, events, hused, hrender, rfl, hafter⟩
  · intro hendless
    change (fresh.render history >>= fun ((_, used), after) => used.rerender n after) = none
    cases hrun : fresh.render history with
    | none => rfl
    | some ending =>
      obtain ⟨again, events, hrender, _⟩ :=
        exists_render_of_first hresolver htags hdata hrun 0 "" other
      cases hendless.symm.trans hrender

/-- A task that gives one list every time. -/
def steadyList : Value :=
  .lazy { serial := 0, label := "list", returns := .array, invariant := false } fun _ =>
    .array [.str "one", .int 2]

/-- The render fails behind a loop that has written something. -/
theorem render_repeatable_failing :
    let env : RenderEnv := { renderer :=
      { tags := ⟨[("box", Stock.box), ("later", Stock.later)]⟩, policy := .strict } }
    let nodes : List Node :=
      [.loop "x" "list"
          [.custom (.mk "box" []
            (some [.expression [.tag (.mk "later" [.atom (.path "x")] none)]]))],
        .expression [.atom (.path "raw")]]
    let data : Context := [("list", steadyList), ("raw", .bytes [0xff])]
    let fresh : Evaluator := { nodes, data, env }
    env.resolver.FromArguments ∧
      (∀ name tag, env.tags.get? name = some tag → tag.FromContext) ∧
      (∀ key v, (key, v) ∈ data → Value.Everywhere Value.Steady v) ∧
      ∃ left after,
        fresh.render [] = some ((.error (.serializationFailed "bytes"), left), after) ∧
        left.output = "box[one]box[2]" ∧
        ∃ used before again events, fresh.rerender 2 [] = some (used, before) ∧
          used.render before =
            some ((.error (.serializationFailed "bytes"), again), events ++ before) ∧
          again.data = data ∧ after = events ++ [] := by
  intro env nodes data fresh
  have htags : ∀ name tag, env.tags.get? name = some tag → tag.FromContext :=
    Entries.of_get? (List.forall_mem_cons.2
      ⟨Stock.fromContext_box, List.forall_mem_singleton.2 Stock.fromContext_later⟩)
  have hdata : ∀ key v, (key, v) ∈ data → Value.Everywhere Value.Steady v := by
    intro key v hv
    rcases List.mem_cons.1 hv with heq | hmem
    · obtain ⟨rfl, rfl⟩ := Prod.mk.inj heq
      refine Value.everywhere_lazy_iff.2 ⟨fun _ _ => rfl, fun _ => ?_⟩
      refine Value.everywhere_array_iff.2 ⟨trivial, ?_⟩
      simp only [List.forall_mem_cons]
      refine ⟨?_, ?_, List.forall_mem_nil _⟩
      · exact Value.everywhere_of_no_part trivial nofun
      · exact Value.everywhere_of_no_part trivial nofun
    · obtain ⟨rfl, rfl⟩ := Prod.mk.inj (List.mem_singleton.1 hmem)
      exact Value.everywhere_of_no_part trivial nofun
  have hresolver : env.resolver.FromArguments := Resolver.fromArguments_context
  have hrun : ∃ after,
      ((fun (result, left) => (result, Evaluator.output left)) <$> fresh.render) [] =
        some ((.error (.serializationFailed "bytes"), "box[one]box[2]"), after) := by
    rw [Evaluator.render, ← Program.perform_map]
    exact ⟨_, Step.perform_eq_some_iff.2 ⟨8, by with_unfolding_all rfl⟩⟩
  obtain ⟨after, hrun⟩ := hrun
  obtain ⟨⟨_, left⟩, hfirst, heq⟩ := PartialM.map_eq_some_iff.1 hrun
  obtain ⟨rfl, houtput⟩ := Prod.mk.inj heq
  have hagain := (render_repeatable env hresolver htags nodes data hdata 2 [] []).1
  exact ⟨hresolver, htags, hdata, left, _, hfirst, houtput, hagain _ left _ hfirst⟩

/-- A resolver with a count of its own: it notes each of its calls and gives the number of those
before. -/
def Resolver.counting : Resolver := fun _ _ _ => do
  let history ← RenderM.ofRun (record (.noted "resolved"))
  return [toValue (history.count (.noted "resolved"))]

/-- A task that gives one array every time. In it is a task that counts its own runs. -/
def steadyAroundCounting : Value :=
  .lazy { serial := 0, label := "array", returns := .array, invariant := false } fun _ =>
    .array [.lazy counter fun history => toValue (history.runs counter)]
where
  counter : Task := { serial := 1, label := "counter", returns := .int, invariant := false }

/-- What two renders of one evaluator give. -/
def Evaluator.twice (evaluator : Evaluator) : PartialM (List (Except EvalError String)) := do
  let (first, used) ← evaluator.render
  let (second, _) ← used.render
  return [first, second]

theorem Evaluator.twice_eq_perform (evaluator : Evaluator) :
    evaluator.twice = Program.perform evaluator.env.answer do
      let first ← evaluator.text.run
      let second ← evaluator.text.run
      return [first, second] := by
  have htext : evaluator.text.run.perform evaluator.env.answer = Prod.fst <$> evaluator.render :=
    evaluator.fst_render.symm
  simp only [Program.perform_bind, Program.perform_pure, htext, bind_map_left]
  funext history
  change (evaluator.render history >>= _) = (evaluator.render history >>= _)
  cases hfirst : evaluator.render history with
  | none => rfl
  | some ending =>
    obtain ⟨⟨first, used⟩, after⟩ := ending
    obtain ⟨offset, output, rfl⟩ := exists_left_of_render hfirst
    have hsecond := congrArg (fun results => (results >>= fun second => pure [first, second]) after)
      (evaluator.fst_render_congr offset output)
    simp only [bind_map_left] at hsecond
    exact hsecond

/-- It is not enough that tags go by their invocation and that the lazy values of the data keep
their answers: a resolver may count its calls, and so may a task that stands in the answer of
another. -/
theorem render_not_repeatable :
    let counted : Evaluator :=
      { nodes := [.path "x"], data := [], env := { renderer := { resolver := .counting } } }
    let nested : Evaluator :=
      { nodes := [.path "x"], data := [("x", steadyAroundCounting)], env := {} }
    ((∀ name tag, counted.env.tags.get? name = some tag → tag.FromContext) ∧
      (∀ key v, (key, v) ∈ counted.data → v.Steady) ∧
      (counted.twice []).map Prod.fst = some [.ok "0", .ok "1"]) ∧
    (∀ name tag, nested.env.tags.get? name = some tag → tag.FromContext) ∧
      (∀ key v, (key, v) ∈ nested.data → v.Steady) ∧
      (nested.twice []).map Prod.fst = some [.ok "[\"0\"]", .ok "[\"1\"]"] := by
  intro counted nested
  have hsteady : ∀ key v, (key, v) ∈ nested.data → v.Steady := by
    intro key v hv
    obtain ⟨rfl, rfl⟩ := Prod.mk.inj (List.mem_singleton.1 hv)
    exact fun _ _ => rfl
  have hcounted : counted.twice [] =
      some ([.ok "0", .ok "1"], [.noted "resolved", .noted "resolved"]) := by
    rw [Evaluator.twice_eq_perform]
    exact Step.perform_eq_some_iff.2 ⟨0, by with_unfolding_all rfl⟩
  have hnested : ∃ after, nested.twice [] = some ([.ok "[\"0\"]", .ok "[\"1\"]"], after) := by
    rw [Evaluator.twice_eq_perform]
    exact ⟨_, Step.perform_eq_some_iff.2 ⟨0, by with_unfolding_all rfl⟩⟩
  obtain ⟨after, hnested⟩ := hnested
  rw [hcounted, hnested]
  exact ⟨⟨nofun, nofun, rfl⟩, nofun, hsteady, rfl⟩

end TemplateRender
