import TemplateRender.Proofs.EqualOutput

/-!
What output sees of a value that is forced or resolved first. Forcing takes off the layers on top
and runs what writing the value would run, as long as no lazy value answers with another one, of
which writing runs the first only. Resolving takes off other layers at other depths, but with
steady answers what is left without any layers is the same, and with it text and truth value.
-/
namespace TemplateRender.Value

variable {v : Value}

theorem text?_forced (format : FormatConfig) (h : Everywhere Settling v) (history : History) :
    (v.forced >>= fun settled => settled.text? format) history = v.text? format history := by
  induction h generalizing history with
  | @intro v here _ ih =>
    cases v with
    | present inner declared => exact ih inner (.inner inner declared) history
    | lazy task compute =>
      rw [text?_lazy task (here history)]
      exact ih (compute history) (.result task compute history) (.ran task :: history)
    | _ => rfl

theorem sameText_resolve (format : FormatConfig) (hsteady : Everywhere Steady v)
    (hsettling : Everywhere Settling v) (history : History) :
    SameText format (v.resolve history).1 v := by
  have hsteady' : Everywhere Steady (v.resolve history).1 :=
    hsteady.resolve contentBlind_steady history
  have hsettling' : Everywhere Settling (v.resolve history).1 :=
    hsettling.resolve contentBlind_settling history
  intro before after
  calc ((v.resolve history).1.text? format before).1
      = ((v.resolve history).1.bare.text? format []).1 :=
        sameText_bare_of_settling hsteady' hsettling' before []
    _ = (v.bare.text? format []).1 := by rw [bare_resolve hsteady history]
    _ = (v.text? format after).1 := (sameText_bare_of_settling hsteady hsettling after []).symm

theorem isTruthy_resolve (hsteady : Everywhere Steady v) (history before after : History) :
    ((v.resolve history).1.isTruthy before).1 = (v.isTruthy after).1 := by
  rw [isTruthy_bare (hsteady.resolve contentBlind_steady history) before [],
    isTruthy_bare hsteady after [], bare_resolve hsteady history]

/-- Forcing a value first changes neither its text nor what runs for it. Resolving it first changes
neither its text nor whether it counts as true, if lazy values keep their answers. -/
theorem output_forced_resolve (h : Everywhere Settling v) (format : FormatConfig) :
    (∀ history, v.text? format history =
        (v.forced >>= fun settled => settled.text? format) history) ∧
      (Everywhere Steady v → ∀ history before after,
        ((v.resolve history).1.text? format before).1 = (v.text? format after).1 ∧
          ((v.resolve history).1.isTruthy before).1 = (v.isTruthy after).1) := by
  refine ⟨fun history => (text?_forced format h history).symm, fun hsteady history => ?_⟩
  exact fun before after => ⟨sameText_resolve format hsteady h history before after,
    isTruthy_resolve hsteady history before after⟩

/-- The map loses two layers at once: its own and that of the nil in it. -/
theorem output_forced_resolve_map : Everywhere Settling miscastMap ∧ Everywhere Steady miscastMap ∧
    miscastMap.text? {} [] = (miscastMap.forced >>= fun settled => settled.text? {}) [] ∧
    ((miscastMap.resolve []).1.text? {} []).1 = (miscastMap.text? {} []).1 ∧
    ((miscastMap.resolve []).1.isTruthy []).1 = (miscastMap.isTruthy []).1 := by
  have hsettling : Everywhere Settling miscastMap :=
    everywhere_miscastMap (fun _ => rfl) trivial trivial trivial trivial
  have hsteady : Everywhere Steady miscastMap :=
    everywhere_miscastMap (fun _ _ => rfl) trivial trivial trivial trivial
  obtain ⟨hforced, hresolve⟩ := output_forced_resolve hsettling {}
  exact ⟨hsettling, hsteady, hforced [], hresolve hsteady [] [] []⟩

end TemplateRender.Value
