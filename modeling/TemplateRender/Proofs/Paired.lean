import TemplateRender.Evaluation

/-!
Two computations side by side. A pairing says which histories count as alike and which errors of
the first computation release the second one from all duties. Paired computations that start from
histories that are alike give related results and end in histories that are alike.
-/
namespace TemplateRender

variable {α β γ δ : Type}

/-- What two computations have to agree on. -/
structure Pairing where
  /-- Histories that count as alike. -/
  history : History → History → Prop
  /-- Errors of the first computation after which nothing is asked of the second. -/
  released : EvalError → Prop

def RunM.Paired (P : Pairing) (rel : α → β → Prop) (x : RunM α) (y : RunM β) : Prop :=
  ∀ left right, P.history left right →
    rel (x left).1 (y right).1 ∧ P.history (x left).2 (y right).2

namespace RunM

variable {P : Pairing} {rel : α → β → Prop} {rel' : γ → δ → Prop}

theorem Paired.pure {a : α} {b : β} (h : rel a b) : Paired P rel (pure a) (pure b) :=
  fun _ _ hhistory => ⟨h, hhistory⟩

theorem Paired.mono {rel' : α → β → Prop} {x : RunM α} {y : RunM β} (hxy : Paired P rel x y)
    (hrel : ∀ a b, rel a b → rel' a b) : Paired P rel' x y := by
  intro left right hhistory
  obtain ⟨hresult, hafter⟩ := hxy left right hhistory
  exact ⟨hrel _ _ hresult, hafter⟩

theorem Paired.bind {x : RunM α} {y : RunM β} {f : α → RunM γ} {g : β → RunM δ}
    (hxy : Paired P rel x y) (hfg : ∀ a b, rel a b → Paired P rel' (f a) (g b)) :
    Paired P rel' (x >>= f) (y >>= g) := by
  intro left right hhistory
  obtain ⟨hrel, hafter⟩ := hxy left right hhistory
  exact hfg _ _ hrel _ _ hafter

theorem Paired.bind_eq {x y : RunM α} {f : α → RunM γ} {g : α → RunM δ} (hxy : Paired P Eq x y)
    (hfg : ∀ a, Paired P rel' (f a) (g a)) : Paired P rel' (x >>= f) (y >>= g) :=
  hxy.bind fun a _ heq => heq ▸ hfg a

end RunM

end TemplateRender
