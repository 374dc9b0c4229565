import Mathlib.Logic.Relation
import TemplateRender.Proofs.Output
import TemplateRender.Proofs.Paired

/-!
Programs in lockstep. Two programs go in lockstep when they come to requests that correspond, one
after another, as long as the answers are related, and end alike: in related results or in one
error, unless the first is released. A dialogue says which requests correspond. When the answers to
requests that correspond are in lockstep themselves, performing the two programs has outcomes that
agree, and one of them is endless exactly if the other is (`Lockstep.perform`). Lockstep is closed
under everything that renders are built with.
-/
namespace TemplateRender

variable {α β γ δ : Type}

/-- Which requests correspond, and how their results have to be related. -/
abbrev Correspondence := (r r' : Request) → (r.Result → r'.Result → Prop) → Prop

/-- What two programs have to agree on. -/
structure Dialogue extends Pairing where
  asked : Correspondence

/-- The same outcome, up to related results. -/
inductive Pairing.Agree (P : Pairing) (rel : α → β → Prop) :
    Except EvalError α × History → Except EvalError β × History → Prop where
  | ok {a : α} {b : β} {left right : History} : rel a b → P.history left right →
      P.Agree rel (.ok a, left) (.ok b, right)
  | error (e : EvalError) {left right : History} : P.history left right →
      P.Agree rel (.error e, left) (.error e, right)

namespace Pairing.Agree

variable {P : Pairing}

theorem self {after : History} (h : P.history after after) (outcome : Except EvalError α) :
    P.Agree Eq (outcome, after) (outcome, after) := by
  cases outcome with
  | ok a => exact .ok rfl h
  | error e => exact .error e h

theorem mono {rel rel' : α → β → Prop} {outcome : Except EvalError α × History}
    {outcome' : Except EvalError β × History} (h : P.Agree rel outcome outcome')
    (hrel : ∀ a b, rel a b → rel' a b) : P.Agree rel' outcome outcome' := by
  cases h with
  | ok hab hafter => exact .ok (hrel _ _ hab) hafter
  | error e hafter => exact .error e hafter

theorem eq {outcome outcome' : Except EvalError α × History} (h : P.Agree Eq outcome outcome')
    (hhistory : P.history = Eq) : outcome = outcome' := by
  cases h with
  | ok hab hafter =>
    rw [hhistory] at hafter
    rw [hab, hafter]
  | error e hafter =>
    rw [hhistory] at hafter
    rw [hafter]

end Pairing.Agree

/-- A released error stays one, whatever is done about it. -/
def Step.StaysReleased (P : Pairing) (step : Step (Except EvalError α)) : Prop :=
  ∃ e after, step = .done (.error e) after ∧ P.released e

inductive Dialogue.Lockstep (D : Dialogue) (rel : α → β → Prop) :
    Step (Except EvalError α) → Step (Except EvalError β) → Prop where
  | done {outcome : Except EvalError α} {outcome' : Except EvalError β} {left right : History} :
      D.Agree rel (outcome, left) (outcome', right) →
      D.Lockstep rel (.done outcome left) (.done outcome' right)
  | released {e : EvalError} (left : History) (step : Step (Except EvalError β)) :
      D.released e → D.Lockstep rel (.done (.error e) left) step
  | ask {r r' : Request} {results : r.Result → r'.Result → Prop} {left right : History}
      {next : Except EvalError r.Result → History → Step (Except EvalError α)}
      {next' : Except EvalError r'.Result → History → Step (Except EvalError β)} :
      D.asked r r' results → D.history left right →
      (∀ {outcome outcome'}, D.Agree results outcome outcome' →
        D.Lockstep rel (next outcome.1 outcome.2) (next' outcome'.1 outcome'.2)) →
      (∀ e after, D.released e → (next (.error e) after).StaysReleased D.toPairing) →
      D.Lockstep rel (.ask r left next) (.ask r' right next')

/-- Both programs go in lockstep when they start from histories that are alike. -/
def RenderM.Paired (D : Dialogue) (rel : α → β → Prop) (x : RenderM α) (y : RenderM β) : Prop :=
  ∀ left right, D.history left right → D.Lockstep rel (x.run left) (y.run right)

/-- Paired on every output, with equal outputs in the end. -/
def OutputM.Paired (D : Dialogue) (rel : α → β → Prop) (x : OutputM α) (y : OutputM β) : Prop :=
  ∀ output, RenderM.Paired D (fun a b => rel a.1 b.1 ∧ a.2 = b.2) (x.onto output) (y.onto output)

variable {D : Dialogue} {rel : α → β → Prop} {rel' : γ → δ → Prop}

theorem Step.StaysReleased.bind {P : Pairing} {step : Step (Except EvalError α)}
    (h : step.StaysReleased P) (f : α → RenderM β) :
    (step.bind (RenderM.andThen f)).StaysReleased P := by
  obtain ⟨e, after, rfl, hreleased⟩ := h
  exact ⟨e, after, rfl, hreleased⟩

namespace Dialogue.Lockstep

theorem bind {step : Step (Except EvalError α)} {step' : Step (Except EvalError β)}
    {f : α → RenderM γ} {g : β → RenderM δ} (h : D.Lockstep rel step step')
    (hfg : ∀ a b, rel a b → RenderM.Paired D rel' (f a) (g b)) :
    D.Lockstep rel' (step.bind (RenderM.andThen f)) (step'.bind (RenderM.andThen g)) := by
  induction h with
  | done hagree =>
    cases hagree with
    | ok hab hafter => exact hfg _ _ hab _ _ hafter
    | error e hafter => exact .done (.error e hafter)
  | released left step hreleased => exact .released left _ hreleased
  | ask hasked hhistory _ hstays ih =>
    exact .ask hasked hhistory ih fun e after hreleased => (hstays e after hreleased).bind f

theorem mono {P : Pairing} {asked asked' : Correspondence} {rel' : α → β → Prop}
    {step : Step (Except EvalError α)} {step' : Step (Except EvalError β)}
    (h : Lockstep ⟨P, asked⟩ rel step step')
    (hasked : ∀ {r r' results}, asked r r' results → asked' r r' results)
    (hrel : ∀ a b, rel a b → rel' a b) : Lockstep ⟨P, asked'⟩ rel' step step' := by
  induction h with
  | done hagree => exact .done (hagree.mono hrel)
  | released left step hreleased => exact .released left step hreleased
  | ask hrequests hhistory _ hstays ih =>
    exact .ask (hasked hrequests) hhistory (fun hagree => ih hagree) hstays

end Dialogue.Lockstep

namespace RenderM

theorem Paired.pure {a : α} {b : β} (h : rel a b) : Paired D rel (pure a) (pure b) :=
  fun _ _ hhistory => .done (.ok h hhistory)

theorem Paired.throw (e : EvalError) :
    Paired D rel (throw e : RenderM α) (throw e : RenderM β) :=
  fun _ _ hhistory => .done (.error e hhistory)

theorem paired_of_released {e : EvalError} (h : D.released e) (y : RenderM β) :
    Paired D rel (throw e : RenderM α) y :=
  fun left right _ => .released left (y.run right) h

theorem Paired.ofRun {x : RunM α} {y : RunM β} (h : RunM.Paired D.toPairing rel x y) :
    Paired D rel (ofRun x) (ofRun y) := by
  intro left right hhistory
  obtain ⟨hrel, hafter⟩ := h left right hhistory
  exact .done (.ok hrel hafter)

theorem Paired.ask {r r' : Request} {results : r.Result → r'.Result → Prop}
    (h : D.asked r r' results) : Paired D results (ask r) (ask r') :=
  fun _ _ hhistory => .ask h hhistory .done fun e after hreleased => ⟨e, after, rfl, hreleased⟩

theorem Paired.render {nodes nodes' : List Node} {data data' : Context}
    (h : D.asked (.render nodes data) (.render nodes' data') (@Eq String)) :
    Paired D Eq (render nodes data) (render nodes' data') := .ask h

theorem Paired.resolve {params params' : List Param} {data data' : Context}
    {results : List Value → List Value → Prop}
    (h : D.asked (.resolve params data) (.resolve params' data') results) :
    Paired D results (resolve params data) (resolve params' data') := .ask h

theorem Paired.invoke {name name' : String} {call call' : Invocation}
    {results : Value → Value → Prop}
    (h : D.asked (.invoke name call) (.invoke name' call') results) :
    Paired D results (invoke name call) (invoke name' call') := .ask h

theorem Paired.bind {x : RenderM α} {y : RenderM β} {f : α → RenderM γ} {g : β → RenderM δ}
    (hxy : Paired D rel x y) (hfg : ∀ a b, rel a b → Paired D rel' (f a) (g b)) :
    Paired D rel' (x >>= f) (y >>= g) := by
  intro left right hhistory
  rw [run_bind, run_bind]
  exact (hxy left right hhistory).bind hfg

theorem Paired.bind_eq {x y : RenderM α} {f : α → RenderM γ} {g : α → RenderM δ}
    (hxy : Paired D Eq x y) (hfg : ∀ a, Paired D rel' (f a) (g a)) :
    Paired D rel' (x >>= f) (y >>= g) :=
  hxy.bind fun a _ heq => heq ▸ hfg a

theorem Paired.mono {rel' : α → β → Prop} {x : RenderM α} {y : RenderM β} (hxy : Paired D rel x y)
    (hrel : ∀ a b, rel a b → rel' a b) : Paired D rel' x y :=
  fun left right hhistory => (hxy left right hhistory).mono id hrel

theorem Paired.mono_asked {P : Pairing} {asked asked' : Correspondence} {x : RenderM α}
    {y : RenderM β} (hxy : Paired ⟨P, asked⟩ rel x y)
    (hasked : ∀ {r r' results}, asked r r' results → asked' r r' results) :
    Paired ⟨P, asked'⟩ rel x y :=
  fun left right hhistory => (hxy left right hhistory).mono hasked fun _ _ hrel => hrel

end RenderM

namespace OutputM

theorem Paired.pure {a : α} {b : β} (h : rel a b) : Paired D rel (pure a) (pure b) :=
  fun _ => RenderM.Paired.pure ⟨h, rfl⟩

theorem Paired.throw (e : EvalError) :
    Paired D rel (throw e : OutputM α) (throw e : OutputM β) :=
  fun _ => RenderM.Paired.throw e

theorem Paired.write (text : String) : Paired D Eq (write text) (write text) :=
  fun _ => RenderM.Paired.pure ⟨rfl, rfl⟩

theorem Paired.bind {x : OutputM α} {y : OutputM β} {f : α → OutputM γ} {g : β → OutputM δ}
    (hxy : Paired D rel x y) (hfg : ∀ a b, rel a b → Paired D rel' (f a) (g b)) :
    Paired D rel' (x >>= f) (y >>= g) := by
  intro output
  rw [onto_bind, onto_bind]
  refine (hxy output).bind ?_
  rintro ⟨a, written⟩ ⟨b, _⟩ ⟨hrel, rfl⟩
  exact hfg a b hrel written

theorem Paired.bind_eq {x y : OutputM α} {f : α → OutputM γ} {g : α → OutputM δ}
    (hxy : Paired D Eq x y) (hfg : ∀ a, Paired D rel' (f a) (g a)) :
    Paired D rel' (x >>= f) (y >>= g) :=
  hxy.bind fun a _ heq => heq ▸ hfg a

theorem Paired.ofRender {x : RenderM α} {y : RenderM β} (hxy : RenderM.Paired D rel x y) :
    Paired D rel (ofRender x) (ofRender y) := by
  intro output
  rw [onto_ofRender, onto_ofRender]
  exact hxy.bind fun a b hrel => .pure ⟨hrel, rfl⟩

theorem Paired.collect {x y : OutputM Unit} (hxy : Paired D Eq x y) :
    RenderM.Paired D Eq (collect x) (collect y) := by
  rw [collect_eq_onto, collect_eq_onto]
  exact (hxy "").bind fun a b hrel => .pure hrel.2

end OutputM

/-- How two programs may turn out, one of which may be released. -/
inductive Pairing.Outcomes (P : Pairing) (rel : α → β → Prop) :
    Option (Except EvalError α × History) → Option (Except EvalError β × History) → Prop where
  | agree {outcome : Except EvalError α × History} {outcome' : Except EvalError β × History} :
      P.Agree rel outcome outcome' → P.Outcomes rel (some outcome) (some outcome')
  | endless : P.Outcomes rel none none
  | released {e : EvalError} (left : History)
      (right : Option (Except EvalError β × History)) :
      P.released e → P.Outcomes rel (some (.error e, left)) right

namespace Pairing.Outcomes

variable {P : Pairing} {ending ending' : Option (Except EvalError α × History)}

theorem fst_eq (h : P.Outcomes Eq ending ending') (hreleased : ∀ e, ¬ P.released e) :
    ending.map Prod.fst = ending'.map Prod.fst := by
  cases h with
  | agree hagree =>
    cases hagree with
    | ok hab _ => exact congrArg (some ∘ Except.ok) hab
    | error e _ => rfl
  | endless => rfl
  | released _ _ h => exact absurd h (hreleased _)

end Pairing.Outcomes

section Perform

variable {answer answer' : (request : Request) → RenderM request.Result}

/-- Requests that correspond have answers in lockstep. -/
def Dialogue.Answers (D : Dialogue)
    (answer answer' : (request : Request) → RenderM request.Result) : Prop :=
  ∀ r r' results, D.asked r r' results → RenderM.Paired D results (answer r) (answer' r')

namespace Dialogue.Lockstep

/-- What the first program comes to, the second comes to as well. -/
theorem right_ends (hanswer : D.Answers answer answer') {n : Nat}
    {step : Step (Except EvalError α)} {step' : Step (Except EvalError β)}
    (h : D.Lockstep rel step step') {ending : Except EvalError α × History}
    (hending : step.within answer n = some ending) :
    D.Outcomes rel (some ending) (step'.perform answer') := by
  induction n using Nat.strongRecOn generalizing α β with
  | ind n ih =>
  cases h with
  | done hagree =>
    rw [Step.within_done] at hending
    rw [← hending, Step.perform_done]
    exact .agree hagree
  | released left _ hreleased =>
    rw [Step.within_done] at hending
    rw [← hending]
    exact .released left _ hreleased
  | ask hasked hhistory hnext hstays =>
    cases n with
    | zero => simp [Step.within] at hending
    | succ n =>
      obtain ⟨outcome, after, hanswered, hrest⟩ := Step.within_ask_eq_some_iff.1 hending
      have houtcomes := ih n n.lt_succ_self (hanswer _ _ _ hasked _ _ hhistory) hanswered
      rw [Step.perform_ask]
      generalize Step.perform answer' _ = answered at houtcomes ⊢
      cases houtcomes with
      | agree hagree => exact ih n n.lt_succ_self (hnext hagree) hrest
      | released _ _ hreleased =>
        obtain ⟨e, last, hdone, hreleased⟩ := hstays _ _ hreleased
        rw [hdone, Step.within_done] at hrest
        rw [← hrest]
        exact .released last _ hreleased

/-- What the second program comes to, the first comes to as well. -/
theorem left_ends (hanswer : D.Answers answer answer') {n : Nat}
    {step : Step (Except EvalError α)} {step' : Step (Except EvalError β)}
    (h : D.Lockstep rel step step') {ending' : Except EvalError β × History}
    (hending : step'.within answer' n = some ending') :
    ∃ ending, step.perform answer = some ending ∧ D.Outcomes rel (some ending) (some ending') := by
  induction n using Nat.strongRecOn generalizing α β with
  | ind n ih =>
  cases h with
  | done hagree =>
    rw [Step.within_done] at hending
    rw [← hending, Step.perform_done]
    exact ⟨_, rfl, .agree hagree⟩
  | released left _ hreleased =>
    rw [Step.perform_done]
    exact ⟨_, rfl, .released left _ hreleased⟩
  | ask hasked hhistory hnext hstays =>
    cases n with
    | zero => simp [Step.within] at hending
    | succ n =>
      obtain ⟨outcome', after', hanswered, hrest⟩ := Step.within_ask_eq_some_iff.1 hending
      obtain ⟨answered, hperform, houtcomes⟩ :=
        ih n n.lt_succ_self (hanswer _ _ _ hasked _ _ hhistory) hanswered
      rw [Step.perform_ask, hperform]
      cases houtcomes with
      | agree hagree => exact ih n n.lt_succ_self (hnext hagree) hrest
      | released left _ hreleased =>
        obtain ⟨e, last, hdone, hreleased⟩ := hstays _ left hreleased
        refine ⟨(.error e, last), ?_, .released last _ hreleased⟩
        exact (congrArg (Step.perform answer) hdone).trans (Step.perform_done _ _)

theorem perform (hanswer : D.Answers answer answer') {step : Step (Except EvalError α)}
    {step' : Step (Except EvalError β)} (h : D.Lockstep rel step step') :
    D.Outcomes rel (step.perform answer) (step'.perform answer') := by
  cases hleft : step.perform answer with
  | some ending =>
    obtain ⟨n, hending⟩ := Step.perform_eq_some_iff.1 hleft
    exact h.right_ends hanswer hending
  | none =>
    cases hright : step'.perform answer' with
    | none => exact .endless
    | some ending' =>
      obtain ⟨n, hending⟩ := Step.perform_eq_some_iff.1 hright
      obtain ⟨ending, hperform, _⟩ := h.left_ends hanswer hending
      rw [hleft] at hperform
      cases hperform

end Dialogue.Lockstep

theorem RenderM.Paired.perform (hanswer : D.Answers answer answer') {x : RenderM α}
    {y : RenderM β} (h : Paired D rel x y) {left right : History}
    (hhistory : D.history left right) :
    D.Outcomes rel ((x.perform answer).run left) ((y.perform answer').run right) :=
  (h left right hhistory).perform hanswer

end Perform

/-- Only equal histories count as alike, and no error releases. -/
def Pairing.exact : Pairing where
  history := Eq
  released _ := False

namespace Pairing.Agree

variable {rel : α → β → Prop} {rel' : β → γ → Prop} {outcome : Except EvalError α × History}

theorem flip {outcome' : Except EvalError β × History}
    (h : Pairing.exact.Agree rel outcome outcome') :
    Pairing.exact.Agree (flip rel) outcome' outcome := by
  cases h with
  | ok hab hafter => exact .ok hab hafter.symm
  | error e hafter => exact .error e hafter.symm

/-- To agree by way of something is to agree with an outcome in between. -/
theorem comp_iff {outcome'' : Except EvalError γ × History} :
    Pairing.exact.Agree (Relation.Comp rel rel') outcome outcome'' ↔
      ∃ outcome', Pairing.exact.Agree rel outcome outcome' ∧
        Pairing.exact.Agree rel' outcome' outcome'' := by
  constructor
  · intro h
    cases h with
    | ok hac hafter =>
      obtain ⟨b, hab, hbc⟩ := hac
      exact ⟨_, .ok hab hafter, .ok hbc rfl⟩
    | error e hafter => exact ⟨_, .error e hafter, .error e rfl⟩
  · rintro ⟨outcome', h, h'⟩
    cases h with
    | ok hab hafter =>
      cases h' with
      | ok hbc hafter' => exact .ok ⟨_, hab, hbc⟩ (hafter.trans hafter')
    | error e hafter =>
      cases h' with
      | error _ hafter' => exact .error e (hafter.trans hafter')

end Pairing.Agree

theorem Pairing.Outcomes.eq {ending ending' : Option (Except EvalError α × History)}
    (h : Pairing.exact.Outcomes Eq ending ending') : ending = ending' := by
  cases h with
  | agree hagree => exact congrArg some (hagree.eq rfl)
  | endless => rfl
  | released _ _ h => exact h.elim

theorem RunM.paired_exact_self (x : RunM α) : RunM.Paired .exact Eq x x := by
  rintro left _ rfl
  exact ⟨rfl, rfl⟩

section Exact

/-- Every request corresponds to itself, and correspondence can be turned round and put together. -/
structure Correspondence.Equivalence (asked : Correspondence) : Prop where
  refl : ∀ r : Request, asked r r Eq
  symm : ∀ {r r' : Request} {results : r.Result → r'.Result → Prop}, asked r r' results →
    asked r' r (flip results)
  trans : ∀ {r r' r'' : Request} {results : r.Result → r'.Result → Prop}
    {results' : r'.Result → r''.Result → Prop}, asked r r' results → asked r' r'' results' →
    asked r r'' (Relation.Comp results results')

variable {asked : Correspondence}

namespace Dialogue.Lockstep

theorem refl (hasked : ∀ r : Request, asked r r Eq) (step : Step (Except EvalError α)) :
    Lockstep ⟨.exact, asked⟩ Eq step step := by
  induction step with
  | done outcome after => exact .done (.self rfl outcome)
  | ask request before next ih =>
    refine .ask (hasked request) rfl (fun hagree => ?_) fun _ _ h => h.elim
    cases hagree.eq rfl
    exact ih _ _

variable {rel : α → β → Prop} {rel' : β → γ → Prop} {step : Step (Except EvalError α)}
  {step' : Step (Except EvalError β)} {step'' : Step (Except EvalError γ)}

theorem symm (hasked : asked.Equivalence) (h : Lockstep ⟨.exact, asked⟩ rel step step') :
    Lockstep ⟨.exact, asked⟩ (flip rel) step' step := by
  induction h with
  | done hagree => exact .done hagree.flip
  | released _ _ h => exact h.elim
  | ask hrequests hhistory _ _ ih =>
    exact .ask (hasked.symm hrequests) hhistory.symm (fun hagree => ih hagree.flip)
      fun _ _ h => h.elim

theorem trans (hasked : asked.Equivalence) (h : Lockstep ⟨.exact, asked⟩ rel step step')
    (h' : Lockstep ⟨.exact, asked⟩ rel' step' step'') :
    Lockstep ⟨.exact, asked⟩ (Relation.Comp rel rel') step step'' := by
  induction h generalizing step'' with
  | done hagree =>
    cases h' with
    | done hagree' => exact .done (Pairing.Agree.comp_iff.2 ⟨_, hagree, hagree'⟩)
    | released _ _ h => exact h.elim
  | released _ _ h => exact h.elim
  | ask hrequests hhistory _ _ ih =>
    cases h' with
    | ask hrequests' hhistory' hnext' _ =>
      refine .ask (hasked.trans hrequests hrequests') (hhistory.trans hhistory') (fun hagree => ?_)
        fun _ _ h => h.elim
      obtain ⟨_, hfirst, hsecond⟩ := Pairing.Agree.comp_iff.1 hagree
      exact ih hfirst (hnext' hsecond)

end Dialogue.Lockstep

namespace RenderM.Paired

variable {x y z : RenderM α}

theorem refl (hasked : ∀ r : Request, asked r r Eq) (x : RenderM α) :
    Paired ⟨.exact, asked⟩ Eq x x := by
  rintro left _ rfl
  exact .refl hasked _

theorem symm (hasked : asked.Equivalence) (h : Paired ⟨.exact, asked⟩ Eq x y) :
    Paired ⟨.exact, asked⟩ Eq y x := by
  rintro left _ rfl
  have hsymm := (h left left rfl).symm hasked
  rwa [Std.Symm.flip_eq] at hsymm

theorem trans (hasked : asked.Equivalence) (h : Paired ⟨.exact, asked⟩ Eq x y)
    (h' : Paired ⟨.exact, asked⟩ Eq y z) : Paired ⟨.exact, asked⟩ Eq x z := by
  rintro left _ rfl
  have htrans := (h left left rfl).trans hasked (h' left left rfl)
  rwa [Relation.comp_eq] at htrans

end RenderM.Paired

namespace OutputM

variable {x y z : OutputM α}

theorem paired_eq_iff {D : Dialogue} :
    Paired D Eq x y ↔ ∀ output, RenderM.Paired D Eq (x.onto output) (y.onto output) :=
  forall_congr' fun _ => ⟨fun h => h.mono fun _ _ hrel => Prod.ext hrel.1 hrel.2,
    fun h => h.mono fun _ _ heq => Prod.ext_iff.1 heq⟩

theorem Paired.refl (hasked : ∀ r : Request, asked r r Eq) (x : OutputM α) :
    Paired ⟨.exact, asked⟩ Eq x x := paired_eq_iff.2 fun _ => .refl hasked _

theorem Paired.symm (hasked : asked.Equivalence) (h : Paired ⟨.exact, asked⟩ Eq x y) :
    Paired ⟨.exact, asked⟩ Eq y x :=
  paired_eq_iff.2 fun output => (paired_eq_iff.1 h output).symm hasked

theorem Paired.trans (hasked : asked.Equivalence) (h : Paired ⟨.exact, asked⟩ Eq x y)
    (h' : Paired ⟨.exact, asked⟩ Eq y z) : Paired ⟨.exact, asked⟩ Eq x z :=
  paired_eq_iff.2 fun output => (paired_eq_iff.1 h output).trans hasked (paired_eq_iff.1 h' output)

end OutputM

end Exact

end TemplateRender
