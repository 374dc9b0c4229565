import TemplateRender.Proofs.Entries
import TemplateRender.Proofs.Simulation
import TemplateRender.Stock.Tags

/-!
What a template can see of its data. A path mentions its first segment, a keyword the whole
context, and a loop takes away the names that its iterations bind. Two contexts that agree on all
that a template mentions free are the same to a render, as long as tags have no use for the data
but to render their bodies over it (`render_eq_of_free_names`). What carries the induction is that
the scope of an iteration restores agreement on the body (`Context.AgreeOn.scope`).
-/
namespace TemplateRender

/-- A name is bound to one value in both contexts or in neither; the whole is the same. -/
def Mention.Same (d d' : Context) : Mention → Prop
  | name n => Entries.get? d n = Entries.get? d' n
  | whole => d = d'

def Context.AgreeOn (mentions : List Mention) (d d' : Context) : Prop :=
  ∀ m ∈ mentions, m.Same d d'

namespace Context.AgreeOn

variable {mentions more : List Mention} {d d' : Context}

theorem refl (mentions : List Mention) (d : Context) : AgreeOn mentions d d := by
  intro m _
  cases m <;> rfl

theorem insert (h : AgreeOn mentions d d') (key : String) (v : Value) :
    AgreeOn mentions (Entries.insert key v d) (Entries.insert key v d') := by
  intro m hm
  have hsame := h m hm
  cases m with
  | name n =>
    simp only [Mention.Same, Entries.get?_insert] at hsame ⊢
    rw [hsame]
  | whole => exact congrArg (Entries.insert key v) hsame

theorem override (h : AgreeOn mentions d d') (bindings : Entries Value) :
    AgreeOn mentions (Entries.override bindings d) (Entries.override bindings d') := by
  induction bindings generalizing d d' with
  | nil => exact h
  | cons pair rest ih => exact ih (h.insert pair.1 pair.2)

/-- What an iteration binds is bound to the same on both sides. -/
theorem scope {item : String}
    (h : AgreeOn (mentions.filter fun m => m ∉ Loop.bound item) d d') (count index : Nat)
    (v : Value) :
    AgreeOn mentions (Loop.scope d item count index v) (Loop.scope d' item count index v) := by
  intro m hm
  by_cases hbound : m ∈ Loop.bound item
  · simp only [Loop.bound, List.mem_cons, List.not_mem_nil, or_false] at hbound
    rcases hbound with rfl | rfl | rfl | rfl <;>
      simp [Mention.Same, Loop.scope, Entries.get?_insert]
  · have hfree : m ∈ mentions.filter fun m => m ∉ Loop.bound item :=
      List.mem_filter.2 ⟨hm, by simpa using hbound⟩
    have hsame := h m hfree
    cases m with
    | name n =>
      simp only [Mention.Same, Loop.scope, Entries.get?_insert] at hsame ⊢
      rw [hsame]
    | whole => exact congrArg (fun data => Loop.scope data item count index v) hsame

theorem get?_eq {name : String} (h : AgreeOn (.name name :: mentions) d d') :
    Entries.get? d name = Entries.get? d' name := h _ (List.mem_cons_self ..)

theorem lookup_eq {path : String} (h : AgreeOn (.name (Path.first path) :: mentions) d d') :
    d.lookup path = d'.lookup path := by
  unfold Context.lookup
  rw [h.get?_eq]

/-- Only the first segment is looked up in the context itself. -/
theorem loopItems_eq {path : String} (h : AgreeOn (.name (Path.first path) :: mentions) d d') :
    d.loopItems path = d'.loopItems path := by
  have hforced : d.forced? (Path.first path) = d'.forced? (Path.first path) := by
    unfold Context.forced?
    rw [h.get?_eq]
  unfold Context.loopItems
  cases Path.others path with
  | nil => rw [Path.itemsFrom, Path.itemsFrom, hforced]
  | cons next rest => rw [Path.itemsFrom, Path.itemsFrom, hforced]

theorem atom_eq {a : Atom} (h : AgreeOn a.free d d') : a.resolve d = a.resolve d' := by
  cases a with
  | constant c => cases c <;> rfl
  | text s => rfl
  | keyword word =>
    cases word with
    | selfWord =>
      have hwhole : d = d' := h .whole (List.mem_cons_self ..)
      rw [hwhole]
    | _ => rfl
  | path p => exact h.lookup_eq

end Context.AgreeOn

/-- What agrees on all that is mentioned is alike; values have to be equal. -/
def Likeness.freeNames : Likeness where
  toPairing := .exact
  data := Context.AgreeOn
  value := Eq
  parameter := Eq
  weaken hsubset h m hm := h m (hsubset hm)
  asParameter h := h

open Likeness

/-- Requests of a tag over one context and over another, which differ at most where it has its body
rendered over the data, with bindings of its own on top, or hands over both. -/
inductive DataAsked (body : Option (List Node)) (d d' : Context) : Correspondence where
  | same (request : Request) : DataAsked body d d' request request Eq
  | body {nodes : List Node} (bindings : Entries Value) : body = some nodes →
      DataAsked body d d' (.render nodes (Entries.override bindings d))
        (.render nodes (Entries.override bindings d')) (@Eq String)
  | handOver (tag name : String) (parameters : List Value) (bindings : Entries Value) :
      DataAsked body d d'
        (.invoke tag { name, parameters, data := Entries.override bindings d, body })
        (.invoke tag { name, parameters, data := Entries.override bindings d', body }) (@Eq Value)

/-- The tag has no use for the data but to have its body rendered over it, with bindings of its own
on top, and to hand them over to tags that have no other use for them. -/
def Tag.DataForBody (tag : Tag) : Prop :=
  ∀ (ctx : TagContext) (d d' : Context), RenderM.Paired ⟨.exact, DataAsked ctx.body d d'⟩ Eq
    (tag { ctx with data := d }) (tag { ctx with data := d' })

/-- Such requests are alike in contexts that agree on what the body mentions. -/
theorem DataAsked.alike {body : Option (List Node)} {d d' : Context}
    (h : Context.AgreeOn (Body.free body) d d') {r r' : Request}
    {results : r.Result → r'.Result → Prop} :
    DataAsked body d d' r r' results → freeNames.Asked r r' results
  | .same request => freeNames.asked_self Context.AgreeOn.refl rfl rfl request
  | .body bindings hbody => by
    rw [hbody] at h
    exact .render _ (h.override bindings)
  | .handOver tag name parameters bindings =>
    .invoke tag ⟨rfl, List.forall₂_eq_eq_eq ▸ rfl, h.override bindings, rfl⟩

theorem Likeness.freeNames_self (request : Request) : freeNames.Asked request request Eq :=
  freeNames.asked_self Context.AgreeOn.refl rfl rfl request

theorem Likeness.freeNames_atoms : freeNames.Atoms := by
  intro a d d' h
  rw [Context.AgreeOn.atom_eq h]
  exact RunM.paired_exact_self _

/-- Contexts that agree on what is mentioned. -/
def Simulation.ofFreeNames {renderer : Renderer} (hresolver : renderer.resolver = .context)
    (htags : ∀ name tag, renderer.tags.get? name = some tag → tag.DataForBody)
    (userInfo : UserInfo) : Simulation { renderer, userInfo } { renderer, userInfo } where
  toLikeness := freeNames
  element := Eq
  nil := rfl
  tags := rfl
  resolve params d d' h := by
    rw [RenderEnv.resolver, hresolver]
    exact freeNames_atoms.resolveAll params h
  tag name tag htag call call' hcall := by
    obtain ⟨own, parameters, d, body⟩ := call
    obtain ⟨_, parameters', d', _⟩ := call'
    obtain ⟨rfl, hparameters, hdata, rfl⟩ := hcall
    obtain rfl : parameters = parameters' := List.forall₂_eq_eq_eq ▸ hparameters
    let env : RenderEnv := { renderer, userInfo }
    have hpaired := htags name tag htag ⟨⟨own, parameters, d, body⟩, env.view⟩ d d'
    exact hpaired.mono_asked (DataAsked.alike hdata)
  isTruthy := by
    rintro v _ rfl
    exact RunM.paired_exact_self _
  emit := by
    rintro v _ rfl
    exact .refl freeNames_self _
  items path mentions d d' h := by
    rw [h.loopItems_eq, List.forall₂_eq_eq_eq]
    exact .refl freeNames_self _
  scope item count index mentions d d' v v' h hv := hv ▸ h.scope count index v

theorem Stock.dataForBody_binding : Tag.DataForBody Stock.binding := by
  rintro ⟨⟨own, parameters, data, body⟩, env⟩ d d'
  refine .bind_eq (.refl .same _) fun _ => ?_
  cases body with
  | none => exact .throw (.missingBody own)
  | some nodes =>
    let ctx : TagContext := ⟨⟨own, parameters, data, some nodes⟩, env⟩
    let text (name : String) (data : Context) : RenderM String :=
      RenderM.render nodes (Entries.override [(name, Stock.param ctx 1)] data)
    have htext : ∀ name, RenderM.Paired ⟨.exact, DataAsked (some nodes) d d'⟩ Eq
        (Value.str <$> text name d) (Value.str <$> text name d') := by
      intro name
      rw [map_eq_pure_bind, map_eq_pure_bind]
      exact .bind_eq (.render (DataAsked.body _ rfl)) fun _ => .pure rfl
    have hname : RenderM.Paired ⟨.exact, DataAsked (some nodes) d d'⟩ Eq
        (Stock.textParam ctx 0 >>= fun name => Value.str <$> text name d)
        (Stock.textParam ctx 0 >>= fun name => Value.str <$> text name d') :=
      .bind_eq (.refl .same _) htext
    exact hname

/-- A render reads no names of the data but those that the template mentions free: contexts in
which these are bound to the same values, or not at all, give the same text or the same error, and
the same tasks run in the same order. -/
theorem render_eq_of_free_names (renderer : Renderer) (hresolver : renderer.resolver = .context)
    (htags : ∀ name tag, renderer.tags.get? name = some tag → tag.DataForBody)
    (nodes : List Node) (hself : .whole ∉ Node.freeAll nodes) (d d' : Context)
    (h : ∀ name, .name name ∈ Node.freeAll nodes → Entries.get? d name = Entries.get? d' name)
    (userInfo : UserInfo) :
    renderer.render nodes d userInfo = renderer.render nodes d' userInfo := by
  have hagree : Context.AgreeOn (Node.freeAll nodes) d d' := by
    intro m hm
    cases m with
    | name n => exact h n hm
    | whole => exact absurd hm hself
  funext history
  exact ((Simulation.ofFreeNames hresolver htags userInfo).outcomes nodes hagree rfl).eq

/-- A name bound by a loop and one bound by a tag may be bound outside as well. -/
theorem render_eq_of_free_names_loop :
    let renderer : Renderer := { tags := ⟨[("let", Stock.binding)]⟩ }
    let nodes : List Node :=
      [.loop "item" "lists.all"
        [.custom (.mk "let" [.atom (.text "y"), .path "item"] (some [.path "y", .path "z.t"]))]]
    let clock : Value := .lazy
      { serial := 0, label := "clock", returns := .int, invariant := false } fun history =>
        .int (Int64.ofNat history.length)
    let lists : Value := .map [("all", .array [.str "a", .str "b"])]
    let d : Context := [("lists", lists), ("item", .int 1), ("z", .map [("t", clock)])]
    let d' : Context := [("z", .map [("t", clock)]), ("lists", lists), ("index", .bool true)]
    renderer.resolver = .context ∧
      (∀ name tag, renderer.tags.get? name = some tag → tag.DataForBody) ∧
      .whole ∉ Node.freeAll nodes ∧
      (∀ name, .name name ∈ Node.freeAll nodes → Entries.get? d name = Entries.get? d' name) ∧
      renderer.render nodes d {} = renderer.render nodes d' {} := by
  intro renderer nodes clock lists d d'
  have htags : ∀ name tag, renderer.tags.get? name = some tag → tag.DataForBody :=
    Entries.of_get? (List.forall_mem_singleton.2 Stock.dataForBody_binding)
  have hfree : Node.freeAll nodes = [.name "lists", .name "y", .name "z"] := rfl
  have hself : .whole ∉ Node.freeAll nodes := by simp [hfree]
  have hsame : ∀ name, .name name ∈ Node.freeAll nodes →
      Entries.get? d name = Entries.get? d' name := by
    intro name hname
    simp only [hfree, List.mem_cons, Mention.name.injEq, List.not_mem_nil, or_false] at hname
    rcases hname with rfl | rfl | rfl <;> rfl
  exact ⟨rfl, htags, hself, hsame,
    render_eq_of_free_names renderer rfl htags nodes hself d d' hsame {}⟩

end TemplateRender
