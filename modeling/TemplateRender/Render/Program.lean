import TemplateRender.Evaluation
import TemplateRender.Syntax.Basic
import TemplateRender.Value.Basic

/-!
Computations that ask. While a tag or a resolver is at work, it may have nodes rendered, parameters
resolved and tags invoked, on whatever it likes and as often as it likes, and how it goes on may
depend on every answer. Such a computation is a program: from a history it comes to an end or to a
request, and from the answer and the history after it on it continues. A program alone always comes
to its end or to a request. To perform a program is to let other programs answer its requests, whose
requests are answered in the same way, and this need not come to an end.
-/
namespace TemplateRender

/-- What a tag is invoked on. -/
structure Invocation where
  name : String
  /-- Resolved parameters in the order of the declaration. -/
  parameters : List Value
  data : Context
  body : Option (List Node)

/-- What can be asked of a render by those that it calls. -/
inductive Request where
  /-- The text of nodes over a context. -/
  | render (nodes : List Node) (data : Context)
  /-- The values of parameters over a context. -/
  | resolve (params : List Param) (data : Context)
  /-- The value of the tag that is registered under a name. -/
  | invoke (tag : String) (call : Invocation)

abbrev Request.Result : Request → Type
  | render _ _ => String
  | resolve _ _ => List Value
  | invoke _ _ => Value

/-- Where a computation stands once it can do nothing more on its own. -/
inductive Step (α : Type) where
  | done (outcome : α) (after : History)
  | ask (request : Request) (before : History)
    (next : Except EvalError request.Result → History → Step α)

/-- A computation that may ask. -/
def Program (α : Type) := History → Step α

variable {α β γ : Type}

namespace Step

def bind : Step α → (α → Program β) → Step β
  | done a after, f => f a after
  | ask request before next, f => ask request before fun answer after => (next answer after).bind f

theorem bind_done (step : Step α) : (step.bind fun a after => done a after) = step := by
  induction step with
  | done a after => rfl
  | ask request before next ih =>
    exact congrArg (ask request before) (funext fun answer => funext fun after => ih answer after)

theorem bind_assoc (step : Step α) (f : α → Program β) (g : β → Program γ) :
    (step.bind f).bind g = step.bind fun a after => (f a after).bind g := by
  induction step with
  | done a after => rfl
  | ask request before next ih =>
    exact congrArg (ask request before) (funext fun answer => funext fun after => ih answer after)

end Step

namespace Program

instance : Monad Program where
  pure a := Step.done a
  bind p f history := (p history).bind f

instance : LawfulMonad Program := LawfulMonad.mk' Program
  (fun p => funext fun history => (p history).bind_done)
  (fun _ _ => rfl)
  (fun p f g => funext fun history => (p history).bind_assoc f g)

/-- A computation that asks nothing. -/
def ofRun (x : RunM α) : Program α := fun history => .done (x history).1 (x history).2

@[simp] theorem pure_apply (a : α) (history : History) :
    (pure a : Program α) history = .done a history := rfl

@[simp] theorem bind_apply (p : Program α) (f : α → Program β) (history : History) :
    (p >>= f) history = (p history).bind f := rfl

end Program

/-- A program with a result or an error. -/
abbrev RenderM := ExceptT EvalError Program

namespace RenderM

def ofRun (x : RunM α) : RenderM α := ExceptT.lift (Program.ofRun x)

def ofEval (x : EvalM α) : RenderM α := ExceptT.mk (Program.ofRun x.run)

/-- Asks, and ends as the answer does. -/
def ask (request : Request) : RenderM request.Result :=
  ExceptT.mk fun history => .ask request history .done

def render (nodes : List Node) (data : Context) : RenderM String := ask (.render nodes data)

def resolve (params : List Param) (data : Context) : RenderM (List Value) :=
  ask (.resolve params data)

def invoke (tag : String) (call : Invocation) : RenderM Value := ask (.invoke tag call)

@[simp] theorem run_pure (a : α) (history : History) :
    (pure a : RenderM α).run history = .done (.ok a) history := rfl

@[simp] theorem run_throw (e : EvalError) (history : History) :
    (throw e : RenderM α).run history = .done (.error e) history := rfl

@[simp] theorem run_ofRun (x : RunM α) (history : History) :
    (ofRun x).run history = .done (.ok (x history).1) (x history).2 := rfl

@[simp] theorem run_ofEval (x : EvalM α) (history : History) :
    (ofEval x).run history = .done (x.run history).1 (x.run history).2 := rfl

/-- What follows a result; an error is the end. -/
def andThen (f : α → RenderM β) : Except EvalError α → Program (Except EvalError β)
  | .ok a => (f a).run
  | .error e => pure (.error e)

theorem bind_eq (x : RenderM α) (f : α → RenderM β) :
    x >>= f = ExceptT.mk (x.run >>= andThen f) := by
  have hcont : ∀ outcome, ExceptT.bindCont f outcome = andThen f outcome := by
    rintro (_ | _) <;> rfl
  exact congrArg ExceptT.mk (bind_congr hcont)

theorem run_bind (x : RenderM α) (f : α → RenderM β) (history : History) :
    (x >>= f).run history = (x.run history).bind (andThen f) := by
  rw [bind_eq]
  rfl

theorem ofEval_bind (x : EvalM α) (f : α → EvalM β) :
    ofEval (x >>= f) = ofEval x >>= fun a => ofEval (f a) := by
  funext history
  change (ofEval (x >>= f)).run history = (ofEval x >>= fun a => ofEval (f a)).run history
  rw [run_bind, run_ofEval, run_ofEval, EvalM.run_bind]
  rcases x.run history with ⟨_ | a, after⟩ <;> rfl

end RenderM

/-- A computation that need not come to an end. -/
abbrev PartialM := StateT History Option

abbrev PerformM := ExceptT EvalError PartialM

theorem PartialM.map_eq_some_iff {f : α → β} {x : PartialM α} {before after : History} {b : β} :
    (f <$> x) before = some (b, after) ↔ ∃ a, x before = some (a, after) ∧ f a = b := by
  change (x before >>= fun result => pure (f result.1, result.2)) = _ ↔ _
  rcases x before with _ | ⟨a, reached⟩
  · simp
  · constructor
    · rintro ⟨⟩
      exact ⟨a, rfl, rfl⟩
    · rintro ⟨_, ⟨⟩, rfl⟩
      rfl

namespace PerformM

theorem run_bind_eq_some_iff {x : PerformM α} {f : α → PerformM β} {before : History}
    {ending : Except EvalError β × History} : (x >>= f).run before = some ending ↔
      (∃ e after, x.run before = some (.error e, after) ∧ ending = (.error e, after)) ∨
        ∃ a between, x.run before = some (.ok a, between) ∧ (f a).run between = some ending := by
  change (x.run before >>= fun result => ExceptT.bindCont f result.1 result.2) = _ ↔ _
  rcases x.run before with _ | ⟨e | a, between⟩
  · simp
  · constructor
    · rintro ⟨⟩
      exact Or.inl ⟨e, between, rfl, rfl⟩
    · rintro (⟨_, _, ⟨⟩, rfl⟩ | ⟨_, _, ⟨⟩, _⟩)
      rfl
  · constructor
    · exact fun h => Or.inr ⟨a, between, rfl, h⟩
    · rintro (⟨_, _, ⟨⟩, _⟩ | ⟨_, _, ⟨⟩, h⟩)
      exact h

/-- Whatever has happened before, it comes to an end. -/
def Ends (x : PerformM α) : Prop := ∀ before, ∃ ending, x.run before = some ending

theorem Ends.bind {x : PerformM α} {f : α → PerformM β} (hx : x.Ends) (hf : ∀ a, (f a).Ends) :
    (x >>= f).Ends := by
  intro before
  obtain ⟨⟨outcome, between⟩, hrun⟩ := hx before
  cases outcome with
  | error e => exact ⟨_, run_bind_eq_some_iff.2 (Or.inl ⟨e, between, hrun, rfl⟩)⟩
  | ok a =>
    obtain ⟨ending, hrest⟩ := hf a between
    exact ⟨ending, run_bind_eq_some_iff.2 (Or.inr ⟨a, between, hrun, hrest⟩)⟩

end PerformM

/-- Performs what is left of a program, `answer` standing for each request. -/
def Step.perform (answer : (request : Request) → RenderM request.Result) {α : Type}
    (step : Step α) : Option (α × History) :=
  match step with
  | .done a after => some (a, after)
  | .ask request before next => do
    let (outcome, after) ← (answer request).run before |>.perform answer
    next outcome after |>.perform answer
partial_fixpoint

section Perform

variable {answer : (request : Request) → RenderM request.Result}

namespace Step

@[simp] theorem perform_done (a : α) (after : History) :
    (done a after).perform answer = some (a, after) := by
  rw [perform]

theorem perform_ask (request : Request) (before : History)
    (next : Except EvalError request.Result → History → Step α) :
    (ask request before next).perform answer =
      ((answer request).run before).perform answer >>= fun (outcome, after) =>
        (next outcome after).perform answer := by
  rw [perform]

theorem perform_bind (step : Step α) (f : α → Program β) :
    (step.bind f).perform answer =
      step.perform answer >>= fun (a, after) => (f a after).perform answer := by
  induction step with
  | done a after =>
    rw [perform_done]
    rfl
  | ask request before next ih =>
    simp only [bind, perform_ask, ih, Option.bind_eq_bind, Option.bind_assoc]

/-- Performs a program, but gives up where requests follow on each other too long. -/
def within (answer : (request : Request) → RenderM request.Result) :
    Nat → {α : Type} → Step α → Option (α × History)
  | _, _, done a after => some (a, after)
  | 0, _, ask .. => none
  | n + 1, _, ask request before next => do
    let (outcome, after) ← within answer n ((answer request).run before)
    within answer n (next outcome after)

@[simp] theorem within_done (n : Nat) (a : α) (after : History) :
    within answer n (done a after) = some (a, after) := by
  cases n <;> rfl

theorem within_ask_eq_some_iff {n : Nat} {request : Request} {before : History}
    {next : Except EvalError request.Result → History → Step α} {ending : α × History} :
    within answer (n + 1) (ask request before next) = some ending ↔
      ∃ outcome after, within answer n ((answer request).run before) = some (outcome, after) ∧
        within answer n (next outcome after) = some ending := by
  simp only [within, Option.bind_eq_bind, Option.bind_eq_some_iff, Prod.exists]

theorem within_mono {n m : Nat} (hnm : n ≤ m) {step : Step α} {ending : α × History}
    (h : within answer n step = some ending) : within answer m step = some ending := by
  induction n generalizing α m with
  | zero =>
    cases step with
    | done a after => rw [← h, within_done, within_done]
    | ask request before next => simp [within] at h
  | succ n ih =>
    cases step with
    | done a after => rw [← h, within_done, within_done]
    | ask request before next =>
      obtain ⟨m, rfl⟩ := Nat.exists_eq_add_of_le' (Nat.one_le_of_lt hnm)
      have hle : n ≤ m := Nat.le_of_succ_le_succ hnm
      obtain ⟨outcome, after, hanswer, hnext⟩ := within_ask_eq_some_iff.1 h
      exact within_ask_eq_some_iff.2 ⟨outcome, after, ih hle hanswer, ih hle hnext⟩

/-- What is performed at all is performed within a bound. -/
theorem perform_eq_some_iff {step : Step α} {ending : α × History} :
    step.perform answer = some ending ↔ ∃ n, within answer n step = some ending := by
  constructor
  · refine perform.partial_correctness answer (fun step ending =>
      ∃ n, within answer n step = some ending) (fun perform ih α step ending h => ?_) step ending
    cases step with
    | done a after => exact ⟨0, h⟩
    | ask request before next =>
      obtain ⟨⟨outcome, after⟩, hanswer, hnext⟩ := Option.bind_eq_some_iff.1 h
      obtain ⟨n, hn⟩ := ih _ _ hanswer
      obtain ⟨m, hm⟩ := ih _ _ hnext
      exact ⟨max n m + 1, within_ask_eq_some_iff.2 ⟨outcome, after,
        within_mono (Nat.le_max_left n m) hn, within_mono (Nat.le_max_right n m) hm⟩⟩
  · rintro ⟨n, h⟩
    induction n generalizing α with
    | zero =>
      cases step with
      | done a after => rw [perform_done, ← h, within_done]
      | ask request before next => simp [within] at h
    | succ n ih =>
      cases step with
      | done a after => rw [perform_done, ← h, within_done]
      | ask request before next =>
        obtain ⟨outcome, after, hanswer, hnext⟩ := within_ask_eq_some_iff.1 h
        rw [perform_ask, ih hanswer]
        exact ih hnext

end Step

namespace Program

def perform (answer : (request : Request) → RenderM request.Result) (p : Program α) :
    PartialM α := fun history => (p history).perform answer

@[simp] theorem perform_pure (a : α) : (pure a : Program α).perform answer = pure a :=
  funext fun history => Step.perform_done a history

theorem perform_bind (p : Program α) (f : α → Program β) :
    (p >>= f).perform answer = p.perform answer >>= fun a => (f a).perform answer :=
  funext fun history => (p history).perform_bind f

theorem perform_map (f : α → β) (p : Program α) :
    (f <$> p).perform answer = f <$> p.perform answer := by
  simp only [map_eq_pure_bind, perform_bind, perform_pure]

end Program

namespace RenderM

def perform (answer : (request : Request) → RenderM request.Result) (x : RenderM α) :
    PerformM α := ExceptT.mk (x.run.perform answer)

@[simp] theorem perform_pure (a : α) : (pure a : RenderM α).perform answer = pure a :=
  Program.perform_pure (Except.ok a)

theorem perform_bind (x : RenderM α) (f : α → RenderM β) :
    (x >>= f).perform answer = x.perform answer >>= fun a => (f a).perform answer := by
  refine (Program.perform_bind x.run _).trans (bind_congr fun outcome => ?_)
  cases outcome with
  | ok a => rfl
  | error e => exact Program.perform_pure _

/-- To ask is to carry out the answer. -/
theorem perform_ask (request : Request) :
    (ask request).perform answer = (answer request).perform answer := by
  funext history
  change (Step.ask request history .done).perform answer =
    ((answer request).run history).perform answer
  simp only [Step.perform_ask, Step.perform_done]
  exact bind_pure _

end RenderM

end Perform

end TemplateRender
