import Mathlib.Data.List.Infix
import TemplateRender.Proofs.Entries
import TemplateRender.Render.Evaluator
import TemplateRender.Stock.Tags

/-!
The order in which parameters are resolved. Groups and tag calls are made from the values of their
members, so the parameters of a list form trees, and each parameter has a place in them. In
post-order what stands within a place comes before it and the rest goes from left to right; the
listing of a parameter list holds every place once and in this order. Groups are resolved within one
call of the resolver while tag calls come back to it from outside, but both resolve their members
first and are finished afterwards (`Param.perform_eq_finish`). Main statement: a resolution goes
through the listing from its beginning, finishes each parameter once and from the values of its
members, and stops at the first failure (`resolve_in_post_order`).
-/
namespace TemplateRender

namespace Param

/-- The parameters whose values a parameter is made from. -/
def members : Param → List Param
  | .atom _ => []
  | .group params => params
  | .tag call => call.params

mutual

/-- What every parameter takes over from its members, every parameter has. -/
theorem members_induction {motive : Param → Prop}
    (step : ∀ p : Param, (∀ member ∈ p.members, motive member) → motive p) : ∀ p : Param, motive p
  | .atom a => step (.atom a) nofun
  | .group params => step (.group params) (members_induction_all step params)
  | .tag (.mk name params body) =>
    step (.tag (.mk name params body)) (members_induction_all step params)

theorem members_induction_all {motive : Param → Prop}
    (step : ∀ p : Param, (∀ member ∈ p.members, motive member) → motive p) :
    ∀ (params : List Param), ∀ p ∈ params, motive p
  | [], _, h => nomatch h
  | p :: rest, q, h => by
    rcases List.mem_cons.1 h with heq | hmem
    · exact heq ▸ members_induction step p
    · exact members_induction_all step rest q hmem

end

end Param

/-- Where a parameter stands: its position in a list, after the place of the parameter that the
list belongs to. -/
abbrev Place := List Nat

/-- What stands within a place comes before it, and the rest goes from left to right. -/
def Place.Precedes : Place → Place → Prop
  | [], _ => False
  | _ :: _, [] => True
  | i :: s, j :: t => i < j ∨ i = j ∧ Precedes s t

theorem Place.precedes_append_iff (place s t : Place) :
    Place.Precedes (place ++ s) (place ++ t) ↔ Place.Precedes s t := by
  induction place with
  | nil => rfl
  | cons i place ih => simp [Place.Precedes, ih]

structure Occurrence where
  place : Place
  param : Param

def Occurrence.Precedes (first second : Occurrence) : Prop := first.place.Precedes second.place

namespace Param

mutual

/-- The parameter at a place, after all that stands within it. -/
def postOrder (place : Place) : Param → List Occurrence
  | .atom a => [⟨place, .atom a⟩]
  | .group params => postOrderAll place 0 params ++ [⟨place, .group params⟩]
  | .tag (.mk name params body) =>
    postOrderAll place 0 params ++ [⟨place, .tag (.mk name params body)⟩]

/-- Parameters side by side within a place, the first of them at position `index`. -/
def postOrderAll (place : Place) (index : Nat) : List Param → List Occurrence
  | [] => []
  | p :: rest => p.postOrder (place ++ [index]) ++ postOrderAll place (index + 1) rest

end

theorem postOrder_eq (place : Place) (p : Param) :
    p.postOrder place = postOrderAll place 0 p.members ++ [⟨place, p⟩] := by
  cases p with
  | atom a => rfl
  | group params => rfl
  | tag call =>
    obtain ⟨name, params, body⟩ := call
    rfl

/-- What stands at a place within a parameter. -/
def within? : Param → Place → Option Param
  | p, [] => some p
  | p, i :: rest => p.members[i]?.bind fun member => member.within? rest

/-- What stands at a place of a parameter list. -/
def at? (params : List Param) : Place → Option Param
  | [] => none
  | i :: rest => params[i]?.bind fun p => p.within? rest

theorem mem_postOrderAll_of_members {params : List Param} {o : Occurrence}
    (hmembers : ∀ p ∈ params, ∀ place, o ∈ p.postOrder place ↔
      ∃ inner, o.place = place ++ inner ∧ p.within? inner = some o.param)
    (place : Place) (index : Nat) : o ∈ postOrderAll place index params ↔
      ∃ i inner, o.place = place ++ (i + index) :: inner ∧
        at? params (i :: inner) = some o.param := by
  induction params generalizing index with
  | nil => simp [postOrderAll, at?]
  | cons p params ih =>
    have hhead := hmembers p (List.mem_cons_self ..) (place ++ [index])
    have htail := ih (fun q hq => hmembers q (List.mem_cons_of_mem _ hq)) (index + 1)
    rw [postOrderAll, List.mem_append, hhead, htail]
    constructor
    · rintro (⟨inner, hplace, hwithin⟩ | ⟨i, inner, hplace, hat⟩)
      · exact ⟨0, inner, by simpa using hplace, hwithin⟩
      · exact ⟨i + 1, inner, by rw [hplace, Nat.succ_add_eq_add_succ], hat⟩
    · rintro ⟨i, inner, hplace, hat⟩
      cases i with
      | zero => exact Or.inl ⟨inner, by simpa using hplace, hat⟩
      | succ i => exact Or.inr ⟨i, inner, by rw [hplace, Nat.succ_add_eq_add_succ], hat⟩

theorem mem_postOrder_iff {o : Occurrence} (p : Param) : ∀ place, o ∈ p.postOrder place ↔
    ∃ inner, o.place = place ++ inner ∧ p.within? inner = some o.param := by
  induction p using members_induction with
  | step p ih =>
    intro place
    rw [postOrder_eq, List.mem_append, mem_postOrderAll_of_members ih, List.mem_singleton]
    constructor
    · rintro (⟨i, inner, hplace, hat⟩ | rfl)
      · exact ⟨i :: inner, hplace, hat⟩
      · exact ⟨[], (List.append_nil place).symm, rfl⟩
    · rintro ⟨inner, hplace, hwithin⟩
      cases inner with
      | nil =>
        obtain ⟨here, param⟩ := o
        obtain rfl := Option.some.inj hwithin
        exact Or.inr (by simpa using hplace)
      | cons i inner => exact Or.inl ⟨i, inner, hplace, hwithin⟩

theorem mem_postOrderAll_iff (place : Place) (index : Nat) (params : List Param)
    (o : Occurrence) : o ∈ postOrderAll place index params ↔
      ∃ i inner, o.place = place ++ (i + index) :: inner ∧
        at? params (i :: inner) = some o.param :=
  mem_postOrderAll_of_members (fun p _ => mem_postOrder_iff p) place index

theorem sorted_postOrderAll_of_members {params : List Param}
    (hmembers : ∀ p ∈ params, ∀ place, (p.postOrder place).Pairwise Occurrence.Precedes)
    (place : Place) (index : Nat) :
    (postOrderAll place index params).Pairwise Occurrence.Precedes := by
  induction params generalizing index with
  | nil => exact .nil
  | cons p params ih =>
    have hhead := hmembers p (List.mem_cons_self ..) (place ++ [index])
    have htail := ih (fun q hq => hmembers q (List.mem_cons_of_mem _ hq)) (index + 1)
    refine List.pairwise_append.2 ⟨hhead, htail, fun first hfirst second hsecond => ?_⟩
    obtain ⟨inner, hplace, _⟩ := (mem_postOrder_iff p _).1 hfirst
    obtain ⟨i, inner', hplace', _⟩ := (mem_postOrderAll_iff _ _ _ _).1 hsecond
    rw [Occurrence.Precedes, hplace, hplace', List.append_assoc, Place.precedes_append_iff]
    exact Or.inl (by omega)

theorem sorted_postOrder (p : Param) : ∀ place,
    (p.postOrder place).Pairwise Occurrence.Precedes := by
  induction p using members_induction with
  | step p ih =>
    intro place
    rw [postOrder_eq]
    refine List.pairwise_append.2 ⟨sorted_postOrderAll_of_members ih place 0,
      List.pairwise_singleton .., fun first hfirst second hsecond => ?_⟩
    obtain rfl := List.mem_singleton.1 hsecond
    obtain ⟨i, inner, hplace, _⟩ := (mem_postOrderAll_iff _ _ _ _).1 hfirst
    have hwithin : Place.Precedes (place ++ i :: inner) (place ++ []) :=
      (Place.precedes_append_iff _ _ _).2 trivial
    rw [List.append_nil] at hwithin
    rw [Occurrence.Precedes, hplace]
    exact hwithin

/-- What is left to do at a parameter once its members have values: a group must hold one of them,
and the tag of a call is invoked on all of them. -/
def finish (env : RenderEnv) (data : Context) : Param → List Value → RenderM Value
  | .atom a, _ => RenderM.ofRun (a.resolve data)
  | .group _, values => single values
  | .tag call, parameters =>
    env.tags.invoke call.name
      (env.tagContext { name := call.name, parameters, data, body := call.body })

theorem perform_eq_finish {env : RenderEnv} (henv : env.resolver = .context) (p : Param)
    (data : Context) : env.perform (p.resolve data) =
      env.perform (resolveAll data p.members) >>= fun values =>
        env.perform (p.finish env data values) := by
  rw [← env.perform_bind]
  cases p with
  | atom a => rfl
  | group params => rfl
  | tag call =>
    change env.perform (call.invoke data) = _
    rw [TagCall.invoke, env.perform_bind, env.perform_bind, env.perform_resolve, henv]
    exact bind_congr fun values => env.perform_invoke _ _

end Param

/-- A parameter in its turn, with the values of its members and the outcome. -/
structure Visit extends Occurrence where
  values : List Value
  outcome : Except EvalError Value

namespace Visit

/-- Visits one after another, each on the history that the one before has left, so that nothing else
happens in between. Only the last one may fail, and its error is named. -/
inductive InARow (env : RenderEnv) (data : Context) :
    History → List Visit → Option EvalError → History → Prop where
  | done (history : History) : InARow env data history [] none history
  | next {before between after : History} {visit : Visit} {v : Value} {rest : List Visit}
      {failure : Option EvalError} : visit.outcome = .ok v →
      (env.perform (visit.param.finish env data visit.values)).run before =
        some (visit.outcome, between) →
      InARow env data between rest failure after →
      InARow env data before (visit :: rest) failure after
  | failed {before after : History} {visit : Visit} {e : EvalError} : visit.outcome = .error e →
      (env.perform (visit.param.finish env data visit.values)).run before =
        some (visit.outcome, after) →
      InARow env data before [visit] (some e) after

/-- The visit at a place gave a value. -/
def Gave (visits : List Visit) (place : Place) (v : Value) : Prop :=
  ∃ visit ∈ visits, visit.place = place ∧ visit.outcome = .ok v

/-- One value for each of the parameters side by side within a place, in their order and as the
visits there gave them. The first of the parameters is at position `index`. -/
structure Gathered (visits : List Visit) (place : Place) (index : Nat) (params : List Param)
    (values : List Value) : Prop where
  length : values.length = params.length
  gave : ∀ i v, values[i]? = some v → Gave visits (place ++ [i + index]) v

end Visit

open Visit

/-- Visits to a listing in its order, up to its end or to the first failure. -/
structure Traversal (env : RenderEnv) (data : Context) (listing : List Occurrence)
    (before : History) (visits : List Visit) (failure : Option EvalError) (after : History) :
    Prop where
  inARow : InARow env data before visits failure after
  /-- Each parameter is visited once, and none is passed over. -/
  inOrder : visits.map toOccurrence <+: listing
  complete : failure = none → visits.map toOccurrence = listing
  /-- Each visit is given what the visits to the members of the parameter gave. -/
  gathered : ∀ visit ∈ visits,
    Gathered visits visit.place 0 visit.param.members visit.values

/-- A run that comes to a traversal: to the error of the visit that failed, or to a result that is
an answer from visits to all of the listing. -/
def Traverses {α : Type} (env : RenderEnv) (data : Context) (listing : List Occurrence)
    (answers : List Visit → α → Prop) (before : History) : Except EvalError α × History → Prop
  | (.ok a, after) =>
    ∃ visits, Traversal env data listing before visits none after ∧ answers visits a
  | (.error e, after) => ∃ visits, Traversal env data listing before visits (some e) after

variable {env : RenderEnv} {data : Context} {listing rest : List Occurrence}
  {before between after : History} {visits others : List Visit} {failure : Option EvalError}

theorem Visit.InARow.append (h : InARow env data before visits none between)
    (hothers : InARow env data between others failure after) :
    InARow env data before (visits ++ others) failure after := by
  generalize hnone : none = first at h
  induction h with
  | done history => exact hothers
  | next hok hrun _ ih => exact .next hok hrun (ih hothers hnone)
  | failed => cases hnone

theorem Visit.Gave.mono {place : Place} {v : Value} (h : Gave visits place v)
    (hsubset : visits ⊆ others) : Gave others place v := by
  obtain ⟨visit, hmem, hvisit⟩ := h
  exact ⟨visit, hsubset hmem, hvisit⟩

namespace Visit.Gathered

variable {place : Place} {index : Nat} {params : List Param} {values : List Value}

theorem mono (h : Gathered visits place index params values) (hsubset : visits ⊆ others) :
    Gathered others place index params values where
  length := h.length
  gave i v hv := (h.gave i v hv).mono hsubset

theorem nil (place : Place) (index : Nat) : Gathered [] place index [] [] := ⟨rfl, nofun⟩

theorem cons {p : Param} {v : Value} (hgave : Gave visits (place ++ [index]) v)
    (h : Gathered others place (index + 1) params values) :
    Gathered (visits ++ others) place index (p :: params) (v :: values) where
  length := congrArg (· + 1) h.length
  gave i w hw := by
    cases i with
    | zero =>
      obtain rfl := Option.some.inj hw
      rw [Nat.zero_add]
      exact hgave.mono (List.subset_append_left ..)
    | succ i =>
      rw [Nat.succ_add_eq_add_succ]
      exact (h.gave i w hw).mono (List.subset_append_right ..)

end Visit.Gathered

namespace Traversal

theorem nil (history : History) : Traversal env data [] history [] none history where
  inARow := .done history
  inOrder := List.prefix_rfl
  complete _ := rfl
  gathered := nofun

/-- After a failure nothing more is visited, however much the listing goes on. -/
theorem stop {e : EvalError} (h : Traversal env data listing before visits (some e) after) :
    Traversal env data (listing ++ rest) before visits (some e) after where
  inARow := h.inARow
  inOrder := h.inOrder.trans (List.prefix_append ..)
  complete := nofun
  gathered := h.gathered

theorem append (h : Traversal env data listing before visits none between)
    (hothers : Traversal env data rest between others failure after) :
    Traversal env data (listing ++ rest) before (visits ++ others) failure after where
  inARow := h.inARow.append hothers.inARow
  inOrder := by
    rw [List.map_append, h.complete rfl]
    exact (List.prefix_append_right_inj listing).2 hothers.inOrder
  complete hnone := by rw [List.map_append, h.complete rfl, hothers.complete hnone]
  gathered visit hmem := by
    rcases List.mem_append.1 hmem with hfirst | hsecond
    · exact (h.gathered visit hfirst).mono (List.subset_append_left ..)
    · exact (hothers.gathered visit hsecond).mono (List.subset_append_right ..)

/-- The visit to a parameter follows those to its members. -/
theorem visit {place : Place} {p : Param} {values : List Value}
    {outcome : Except EvalError Value}
    (h : Traversal env data listing before visits none between)
    (hgathered : Gathered visits place 0 p.members values)
    (hvisit : InARow env data between [⟨⟨place, p⟩, values, outcome⟩] failure after) :
    Traversal env data (listing ++ [⟨place, p⟩]) before
      (visits ++ [⟨⟨place, p⟩, values, outcome⟩]) failure after where
  inARow := h.inARow.append hvisit
  inOrder := by rw [List.map_append, h.complete rfl, List.map_singleton]
  complete _ := by rw [List.map_append, h.complete rfl, List.map_singleton]
  gathered other hmem := by
    rcases List.mem_append.1 hmem with hfirst | hlast
    · exact (h.gathered other hfirst).mono (List.subset_append_left ..)
    · obtain rfl := List.mem_singleton.1 hlast
      exact hgathered.mono (List.subset_append_left ..)

end Traversal

theorem Param.traverses_all_of_members {params : List Param}
    (hmembers : ∀ p ∈ params, ∀ place before ending,
      (env.perform (p.resolve data)).run before = some ending →
      Traverses env data (p.postOrder place) (fun visits v => Gave visits place v) before ending)
    (place : Place) (index : Nat) (before : History)
    {ending : Except EvalError (List Value) × History}
    (hrun : (env.perform (resolveAll data params)).run before = some ending) :
    Traverses env data (postOrderAll place index params)
      (fun visits values => Gathered visits place index params values) before ending := by
  induction params generalizing index before ending with
  | nil =>
    rw [resolveAll, env.perform_pure] at hrun
    obtain rfl : (.ok [], before) = ending := Option.some.inj hrun
    exact ⟨[], .nil before, .nil place index⟩
  | cons p params ih =>
    have hhead := hmembers p (List.mem_cons_self ..) (place ++ [index]) before
    have htail := ih fun q hq => hmembers q (List.mem_cons_of_mem _ hq)
    rw [resolveAll, env.perform_bind, PerformM.run_bind_eq_some_iff] at hrun
    rw [postOrderAll]
    -- If the first parameter fails, those after it get no turn.
    rcases hrun with ⟨e, after, hp, rfl⟩ | ⟨v, between, hp, hrest⟩
    · obtain ⟨visits, h⟩ := hhead _ hp
      exact ⟨visits, h.stop⟩
    obtain ⟨visits, h, hgave⟩ := hhead _ hp
    simp only [env.perform_bind, PerformM.run_bind_eq_some_iff, env.perform_pure] at hrest
    rcases hrest with ⟨e, after, hparams, rfl⟩ | ⟨values, after, hparams, hcons⟩
    · obtain ⟨others, hothers⟩ := htail (index + 1) between hparams
      exact ⟨visits ++ others, h.append hothers⟩
    · obtain ⟨others, hothers, hgathered⟩ := htail (index + 1) between hparams
      obtain rfl : (.ok (v :: values), after) = ending := Option.some.inj hcons
      exact ⟨visits ++ others, h.append hothers, hgathered.cons hgave⟩

theorem Param.traverses_resolve (henv : env.resolver = .context) (p : Param) :
    ∀ place before ending, (env.perform (p.resolve data)).run before = some ending →
      Traverses env data (p.postOrder place) (fun visits v => Gave visits place v) before
        ending := by
  induction p using members_induction with
  | step p ih =>
    intro place before ending hrun
    -- The turn of the parameter itself comes last, and only if no member has failed.
    rw [perform_eq_finish henv, PerformM.run_bind_eq_some_iff] at hrun
    rw [postOrder_eq]
    rcases hrun with ⟨e, after, hfails, rfl⟩ | ⟨values, between, hvalues, hfinish⟩
    · obtain ⟨visits, h⟩ := traverses_all_of_members ih place 0 before hfails
      exact ⟨visits, h.stop⟩
    obtain ⟨visits, h, hgathered⟩ := traverses_all_of_members ih place 0 before hvalues
    obtain ⟨outcome, after⟩ := ending
    cases outcome with
    | error e => exact ⟨_, h.visit hgathered (.failed rfl hfinish)⟩
    | ok v =>
      have hgave : Gave (visits ++ [⟨⟨place, p⟩, values, .ok v⟩]) place v :=
        ⟨_, List.mem_append_right _ (List.mem_singleton_self _), rfl, rfl⟩
      exact ⟨_, h.visit hgathered (.next rfl hfinish (.done after)), hgave⟩

/-- All that is done is done without asking. -/
def RenderM.AsksNothing {α : Type} (x : RenderM α) : Prop :=
  ∀ before, ∃ outcome after, x.run before = .done outcome after

theorem RenderM.AsksNothing.bind {α β : Type} {x : RenderM α} {f : α → RenderM β}
    (hx : x.AsksNothing) (hf : ∀ a, (f a).AsksNothing) : (x >>= f).AsksNothing := by
  intro before
  obtain ⟨outcome, between, hrun⟩ := hx before
  rw [run_bind, hrun]
  cases outcome with
  | error e => exact ⟨.error e, between, rfl⟩
  | ok a => exact hf a between

theorem RenderM.AsksNothing.ends {α : Type} {x : RenderM α} (h : x.AsksNothing) :
    (env.perform x).Ends := by
  intro before
  obtain ⟨outcome, after, hrun⟩ := h before
  exact ⟨(outcome, after),
    (congrArg (Step.perform env.answer) hrun).trans (Step.perform_done outcome after)⟩

theorem Param.ends_finish
    (htags : ∀ name tag, env.tags.get? name = some tag → ∀ ctx, (tag ctx).AsksNothing) (p : Param)
    (values : List Value) : (env.perform (p.finish env data values)).Ends := by
  refine RenderM.AsksNothing.ends ?_
  cases p with
  | atom a => exact fun before => ⟨_, _, rfl⟩
  | group params => rcases values with _ | ⟨_, _ | _⟩ <;> exact fun before => ⟨_, _, rfl⟩
  | tag call =>
    simp only [finish, TagRegistry.invoke]
    cases htag : env.tags.get? call.name with
    | none => exact fun before => ⟨_, _, rfl⟩
    | some tag => exact htags _ tag htag _

theorem Param.ends_all_of_members {params : List Param}
    (hmembers : ∀ p ∈ params, (env.perform (p.resolve data)).Ends) :
    (env.perform (resolveAll data params)).Ends := by
  induction params with
  | nil => exact RenderM.AsksNothing.ends fun before => ⟨_, _, rfl⟩
  | cons p params ih =>
    have htail := ih fun q hq => hmembers q (List.mem_cons_of_mem _ hq)
    simp only [resolveAll, env.perform_bind, env.perform_pure]
    refine (hmembers p (List.mem_cons_self ..)).bind fun v => htail.bind fun values => ?_
    exact fun before => ⟨_, rfl⟩

theorem Param.ends_resolve (henv : env.resolver = .context)
    (htags : ∀ name tag, env.tags.get? name = some tag → ∀ ctx, (tag ctx).AsksNothing) (p : Param) :
    (env.perform (p.resolve data)).Ends := by
  induction p using members_induction with
  | step p ih =>
    rw [perform_eq_finish henv]
    exact (ends_all_of_members ih).bind (ends_finish htags p)

/-- Resolving a list of parameters goes through all that stands in it, at whatever depth, in
post-order. Each parameter is finished once, on one value for each of its members, and to finish a
tag call is to invoke the tag. The first failure is the last visit, and its error is what the
resolution comes to; without a failure there is one value for each parameter of the list. All that
happens in the meantime happens in the visits. The resolution comes to an end if tags ask for
nothing themselves. -/
theorem resolve_in_post_order (env : RenderEnv) (henv : env.resolver = .context)
    (params : List Param) (data : Context) (history : History) :
    let listing := Param.postOrderAll [] 0 params
    let resolved := (env.perform (env.resolver env.view params data)).run history
    listing.Pairwise Occurrence.Precedes ∧
      (∀ o : Occurrence, o ∈ listing ↔ Param.at? params o.place = some o.param) ∧
      (∀ ending, resolved = some ending →
        Traverses env data listing (fun visits values => Gathered visits [] 0 params values)
          history ending) ∧
      ((∀ name tag, env.tags.get? name = some tag → ∀ ctx, (tag ctx).AsksNothing) →
        ∃ ending, resolved = some ending) := by
  intro listing resolved
  have hresolver : resolved = (env.perform (Param.resolveAll data params)).run history := by
    change (env.perform (env.resolver env.view params data)).run history = _
    rw [henv]
    rfl
  refine ⟨?_, ?_, fun ending hrun => ?_, fun htags => ?_⟩
  · exact Param.sorted_postOrderAll_of_members (fun p _ => Param.sorted_postOrder p) [] 0
  · rintro ⟨place, param⟩
    rw [Param.mem_postOrderAll_iff]
    cases place with
    | nil => simp [Param.at?]
    | cons i inner => simp
  · rw [hresolver] at hrun
    exact Param.traverses_all_of_members (fun p _ => Param.traverses_resolve henv p) [] 0 history
      hrun
  · rw [hresolver]
    exact Param.ends_all_of_members (fun p _ => Param.ends_resolve henv htags p) history

/-- Tags of which one leaves a note. -/
def logging : RenderEnv :=
  { renderer := { tags := ⟨[("log", Stock.note), ("count", Stock.count), ("fail", Stock.fail)]⟩ } }

def logged (text : String) : Param := .tag (.mk "log" [.atom (.text text)] none)

theorem Stock.asksNothing_textParam (ctx : TagContext) (i : Nat) :
    (Stock.textParam ctx i).AsksNothing := by
  refine .bind (fun before => ⟨_, _, rfl⟩) fun found => ?_
  split <;> exact fun before => ⟨_, _, rfl⟩

theorem asksNothing_logging :
    ∀ name tag, logging.tags.get? name = some tag → ∀ ctx, (tag ctx).AsksNothing := by
  refine Entries.of_get? ?_
  simp only [logging, RenderEnv.tags, List.forall_mem_cons]
  refine ⟨fun ctx => ?_, fun ctx => ?_, fun ctx => ?_, List.forall_mem_nil _⟩
  · exact (Stock.asksNothing_textParam ctx 0).bind fun text before => ⟨_, _, rfl⟩
  · exact fun before => ⟨_, _, rfl⟩
  · exact (Stock.asksNothing_textParam ctx 0).bind fun text before => ⟨_, _, rfl⟩

/-- A group of two values fails after the tags in it, and before the tag that would fail next. -/
theorem resolve_in_post_order_logging :
    let params : List Param :=
      [.tag (.mk "count" [logged "a", .group [logged "b"]] none), .group [logged "c", logged "d"],
        .tag (.mk "fail" [.atom (.text "late")] none)]
    let resolved := (logging.perform (logging.resolver logging.view params [])).run []
    let events := ["d", "c", "b", "a"].map fun text => Event.noted ("#" ++ text)
    logging.resolver = .context ∧
      (∀ name tag, logging.tags.get? name = some tag → ∀ ctx, (tag ctx).AsksNothing) ∧
      resolved = some (.error (.multipleValues 2), events) ∧
      Traverses logging [] (Param.postOrderAll [] 0 params)
        (fun visits values => Gathered visits [] 0 params values) []
        (.error (.multipleValues 2), events) := by
  intro params resolved events
  have hrun : resolved = some (.error (.multipleValues 2), events) :=
    Step.perform_eq_some_iff.2 ⟨12, by with_unfolding_all rfl⟩
  obtain ⟨_, _, htraverses, _⟩ := resolve_in_post_order logging rfl params [] []
  exact ⟨rfl, asksNothing_logging, hrun, htraverses _ hrun⟩

end TemplateRender
