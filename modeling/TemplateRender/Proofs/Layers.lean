import TemplateRender.Proofs.Covers
import TemplateRender.Stock.Tags

/-!
Rendering does not see layers. Data in which lazy values keep their answers and layers declare
the types of what they hold is rendered to the same text, or ends in the same error, as the same
data with every layer taken off. The two renders are a simulation along `Context.Covers`, which
look-ups, loops and their scopes, conditions and writing all keep. For tags it is an assumption.
-/
namespace TemplateRender

open Pairing

variable {hidden : Task → Bool}

theorem Value.Settled.opened {v w : Value} (h : Value.Settled hidden v w) :
    Value.Opened (Value.Covers hidden) v w := by
  cases h with
  | bool b => exact .bool b
  | int n => exact .int n
  | double d => exact .double d
  | str text => exact .str text
  | bytes data => exact .bytes data
  | nil declared => exact .nil declared
  | array hitems => exact .array hitems
  | map hentries => exact .map hentries

theorem Value.indistinct_covers : Value.Indistinct (upToRuns hidden) (Value.Covers hidden) where
  bool := .bool
  int := .int
  double := .double
  str := .str
  nil := .nil
  map hentries := Value.covers_map_iff.2 hentries
  forced h := h.forced.mono fun _ _ hsettled => hsettled.opened

/-- Bytes that are written on their own do not go through their formatter, bytes in a layer do. -/
theorem outputText?_eq {format : FormatConfig}
    (hbytes : format.formatters.bytes = Formatters.standard.bytes) (v : Value) :
    v.outputText? format = v.text? format := by
  cases v with
  | bytes data =>
    rw [Value.outputText?, Value.text?, hbytes]
    rfl
  | _ => rfl

/-- Contexts with layers and without, and tags that are given anything. -/
def Likeness.layers (hidden : Task → Bool) : Likeness :=
  .ofRelated (upToRuns hidden) (Value.Covers hidden) (fun _ _ => True) fun _ => trivial

theorem paired_emit_of_covers (env : RenderEnv)
    (hbytes : env.format.formatters.bytes = Formatters.standard.bytes) {v w : Value}
    (h : Value.Covers hidden v w) :
    OutputM.Paired (Likeness.layers hidden).dialogue Eq (env.emit v) (env.emit w) := by
  refine paired_emit_of_text env (congrArg ValueType.name h.type_eq) ?_
  rw [outputText?_eq hbytes, outputText?_eq hbytes]
  exact h.text? env.format

/-- The tag does not tell apart two invocations that differ in the values of their parameters, in
layers of their data and in earlier runs of hidden tasks. Tags that ignore their parameters and use
their data only to render the body over it are of this kind. -/
def Tag.IgnoresLayers (hidden : Task → Bool) (tag : Tag) : Prop :=
  ∀ (env : EnvView) {call call' : Invocation},
    Invocation.Alike (Likeness.layers hidden) call call' →
    RenderM.Paired (Likeness.layers hidden).dialogue (Value.Covers hidden) (tag { call with env })
      (tag { call' with env })

/-- A tag may make any value of the text of its body, its name, the number of its parameters and
what the render is set up with. -/
theorem Tag.ignoresLayers_of_body (build : String → Nat → EnvView → String → Value)
    (hbuild : ∀ name count env text,
      Value.Everywhere (Value.Discreet hidden) (build name count env text)) :
    Tag.IgnoresLayers hidden fun ctx => do
      let text ← ctx.renderBody
      return build ctx.name ctx.parameters.length ctx.env text := by
  rintro env ⟨name, parameters, data, body⟩ ⟨_, parameters', data', _⟩
    ⟨rfl, hparameters, hdata, rfl⟩
  cases body with
  | none => exact .throw (.missingBody name)
  | some nodes =>
    refine .bind_eq (.render (Likeness.Asked.render nodes hdata)) fun text => ?_
    simp only [hparameters.length_eq]
    exact .pure (Value.covers_self (hbuild _ _ _ text))

theorem Stock.box_ignoresLayers : Tag.IgnoresLayers hidden Stock.box :=
  Tag.ignoresLayers_of_body (fun name _ _ text => .str (name ++ "[" ++ text ++ "]"))
    fun _ _ _ _ => Value.everywhere_of_no_part trivial nofun

/-- Covering contexts and covering values. -/
def Simulation.ofLayers {renderer : Renderer} (hresolver : renderer.resolver = .context)
    (hbytes : renderer.format.formatters.bytes = Formatters.standard.bytes)
    (htags : ∀ name tag, renderer.tags.get? name = some tag → tag.IgnoresLayers hidden)
    (userInfo : UserInfo) : Simulation { renderer, userInfo } { renderer, userInfo } :=
  Value.indistinct_covers.simulation (fun _ => trivial)
    (paired_emit_of_covers { renderer, userInfo } hbytes)
    (fun params _ _ h => by
      rw [RenderEnv.resolver, hresolver]
      exact (Value.indistinct_covers.atoms fun _ => trivial).resolveAll params h)
    fun name tag htag _ _ => htags name tag htag _

/-- Rendering gives the same text or the same error once every layer is taken off the data. -/
theorem render_bareEntries (hidden : Task → Bool) (renderer : Renderer)
    (hresolver : renderer.resolver = .context)
    (hbytes : renderer.format.formatters.bytes = Formatters.standard.bytes)
    (htags : ∀ name tag, renderer.tags.get? name = some tag → tag.IgnoresLayers hidden)
    (nodes : List Node) (data : Context)
    (hdata : ∀ key v, (key, v) ∈ data → Value.Everywhere (Value.LayerHere hidden) v)
    (userInfo : UserInfo) (history : History) :
    ((renderer.render nodes data userInfo).run history).map Prod.fst =
      ((renderer.render nodes (Value.bareEntries data) userInfo).run history).map Prod.fst := by
  have hcovers := Context.covers_bareEntries hdata
  have hhistory : (Pairing.upToRuns hidden).history history history := rfl
  have houtcomes :=
    (Simulation.ofLayers hresolver hbytes htags userInfo).outcomes nodes hcovers hhistory
  exact houtcomes.fst_eq fun _ hreleased => hreleased

/-- A list that is computed anew each time, with a slot in it. -/
def layeredList : Value :=
  .lazy { serial := 0, label := "list", returns := .array, invariant := false } fun _ =>
    .array [.present (.str "one") .string, .int 2]

theorem render_bareEntries_list :
    let hidden : Task → Bool := fun task => task.label == "list"
    let renderer : Renderer := { tags := ⟨[("box", Stock.box)]⟩, policy := .strict }
    let nodes : List Node :=
      [.loop "item" "list" [.custom (.mk "box" [] (some [.expression [.atom (.path "item")]]))]]
    let data : Context := [("list", layeredList)]
    renderer.resolver = .context ∧
      renderer.format.formatters.bytes = Formatters.standard.bytes ∧
      (∀ name tag, renderer.tags.get? name = some tag → tag.IgnoresLayers hidden) ∧
      (∀ key v, (key, v) ∈ data → Value.Everywhere (Value.LayerHere hidden) v) ∧
      ((renderer.render nodes data {}).run []).map Prod.fst =
        ((renderer.render nodes (Value.bareEntries data) {}).run []).map Prod.fst := by
  intro hidden renderer nodes data
  have htags : ∀ name tag, renderer.tags.get? name = some tag → tag.IgnoresLayers hidden :=
    Entries.of_get? (List.forall_mem_singleton.2 Stock.box_ignoresLayers)
  have hdata : ∀ key v, (key, v) ∈ data → Value.Everywhere (Value.LayerHere hidden) v := by
    intro key v hv
    obtain ⟨rfl, rfl⟩ := Prod.mk.inj (List.mem_singleton.1 hv)
    refine Value.everywhere_lazy_iff.2 ⟨⟨fun _ _ => rfl, fun _ => rfl, fun _ => rfl, rfl⟩, ?_⟩
    refine fun _ => Value.everywhere_array_iff.2 ⟨⟨trivial, trivial, trivial, trivial⟩, ?_⟩
    simp only [List.forall_mem_cons]
    refine ⟨Value.everywhere_present_iff.2 ⟨⟨trivial, rfl, trivial, trivial⟩, ?_⟩, ?_,
      List.forall_mem_nil _⟩
    · exact Value.everywhere_of_no_part ⟨trivial, trivial, trivial, trivial⟩ nofun
    · exact Value.everywhere_of_no_part ⟨trivial, trivial, trivial, trivial⟩ nofun
  exact ⟨rfl, rfl, htags, hdata,
    render_bareEntries hidden renderer rfl rfl htags nodes data hdata {} []⟩

end TemplateRender
