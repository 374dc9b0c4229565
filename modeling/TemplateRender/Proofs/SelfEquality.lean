import TemplateRender.Proofs.Equated

/-!
Which values equal themselves. A comparison of a value with itself takes the same layers off both
sides, so it can only stumble on what it must not run and on doubles that are no numbers. Both are
found however deep they lie, since a comparison that holds has been through everything behind the
value (`Equated.promised`, `Same.numeric`). Main statement: with steady answers, a value equals
itself exactly when neither is behind it (`equal_self_iff`).
-/
namespace TemplateRender

theorem Double.equal_self (d : Double) : d.equal d = !d.isNaN := by
  simp [equal]

namespace Value

/-- A double is a number. -/
def Numeric : Value → Prop
  | double d => d.isNaN = false
  | _ => True

theorem contentBlind_promised : ContentBlind Promised := ⟨fun _ => trivial, fun _ _ => trivial⟩

theorem contentBlind_numeric : ContentBlind Numeric := ⟨fun _ => trivial, fun _ _ => trivial⟩

theorem shallower_wf : WellFounded Shallower := by
  refine Subrelation.wf ?_ (InvImage.wf (fun v : Value => (v, v)) pairShallower_wf)
  rintro a b ⟨p, hp, hle⟩
  have hab : AtMost a b := hle.trans (atMost_of_part hp)
  exact ⟨hab, hab, Or.inl ⟨p, hp, hle⟩⟩

/-- Neither a task without a promise nor a double that is no number is met on the way down. -/
theorem equated_self {v : Value} (hpromised : Everywhere Promised v)
    (hnumeric : Everywhere Numeric v) : Equated v v := by
  induction v using shallower_wf.induction with
  | _ v ih =>
    have hinvariant : v.isInvariant = true := isInvariant_of_promised hpromised
    cases hwrapped : v.isWrapped with
    | true =>
      have hwrapped' : (v.isWrapped || v.isWrapped) = true := by rw [hwrapped, Bool.or_self]
      have hdeclared : sameDeclared v v = true := by simp [sameDeclared]
      refine .opened hwrapped' hinvariant hinvariant hdeclared ?_
      exact ih _ (shallower_resolve v [] hwrapped hinvariant)
        (hpromised.resolve contentBlind_promised []) (hnumeric.resolve contentBlind_numeric [])
    | false =>
      have hparts : ∀ p, Part p v → Equated p p := fun p hp =>
        ih p hp.shallower (hpromised.part hp) (hnumeric.part hp)
      cases v with
      | bool b => exact .bool b
      | int n => exact .int n
      | double d =>
        have hnumber : d.isNaN = false := hnumeric.here
        exact .double (by rw [Double.equal_self, hnumber, Bool.not_false])
      | str text => exact .str text
      | bytes data => exact .bytes data
      | nil declared => exact .nil declared declared
      | array items =>
        rw [isInvariant] at hinvariant
        refine .array hinvariant hinvariant rfl fun i x y hx hy => ?_
        obtain rfl := Option.some.inj (hx.symm.trans hy)
        exact hparts x (.item (List.mem_of_getElem? hx))
      | map entries =>
        rw [isInvariant] at hinvariant
        refine .map hinvariant hinvariant (fun _ => Iff.rfl) fun key x y hx hy => ?_
        obtain rfl := Option.some.inj (hx.symm.trans hy)
        exact hparts x (.entry (Entries.mem_of_get? hx))
      | present | lazy => cases hwrapped

theorem Same.numeric {a b : Value} (h : Same a b) (ha : Everywhere DistinctKeys a) :
    Everywhere Numeric a := by
  induction h with
  | double hequal =>
    refine everywhere_of_no_part ?_ nofun
    simp only [Double.equal, Bool.and_eq_true, Bool.not_eq_true'] at hequal
    exact hequal.1.1
  | array hlength _ ih =>
    refine everywhere_array_iff.2 ⟨trivial, ?_⟩
    exact (forall_mem_of_pairs (Q := fun _ => True) hlength fun i x y hx hy =>
      ⟨ih i x y hx hy (ha.of_getElem? hx), trivial⟩).1
  | map hkeys _ ih =>
    refine everywhere_map_iff.2 ⟨trivial, fun key x hx => ?_⟩
    have hget := ha.here.get?_of_mem hx
    obtain ⟨y, hget'⟩ := hkeys.exists_get? hget
    exact ih key x y hget hget' (ha.of_get? hget)
  | _ => exact everywhere_of_no_part trivial nofun

/-- With steady answers, every double behind a value is in the bare value. -/
theorem numeric_of_bare {v : Value} (hsteady : Everywhere Steady v)
    (h : Everywhere Numeric v.bare) : Everywhere Numeric v := by
  induction hsteady with
  | @intro v here parts ih =>
    cases v with
    | array items =>
      rw [bare, bareItems_eq_map] at h
      refine everywhere_array_iff.2 ⟨trivial, fun w hw => ih w (.item hw) ?_⟩
      exact h.item (List.mem_map_of_mem hw)
    | map entries =>
      rw [bare, bareEntries_eq_map] at h
      refine everywhere_map_iff.2 ⟨trivial, fun key w hw => ih w (.entry hw) ?_⟩
      exact h.entry (List.mem_map.2 ⟨(key, w), hw, rfl⟩)
    | present inner declared =>
      exact everywhere_present_iff.2 ⟨trivial, ih inner (.inner inner declared) h⟩
    | lazy task compute =>
      refine everywhere_lazy_iff.2 ⟨trivial, fun history => ?_⟩
      rw [here history []]
      exact ih (compute []) (.result task compute []) h
    | _ => exact h

/-- With steady answers, a value equals itself exactly when neither a task without a promise nor a
double that is no number is behind it. Declared types may be wrong. -/
theorem equal_self_iff {v : Value} (h : Everywhere SteadyHere v) (history : History) :
    (v.equal v history).1 = true ↔ Everywhere Promised v ∧ Everywhere Numeric v := by
  rw [equal_iff_equated h h]
  constructor
  · intro hequated
    have hbare : Everywhere DistinctKeys v.bare :=
      (h.bare contentBlind_steadyHere).imp fun _ h => h.distinct
    exact ⟨(hequated.promised h h).1,
      numeric_of_bare h.steady ((hequated.same_bare h h).numeric hbare)⟩
  · rintro ⟨hpromised, hnumeric⟩
    exact equated_self hpromised hnumeric

/-- A promise of a number that is kept by a list in which a slot holds no number. -/
def hiddenNaN : Value :=
  lazy { serial := 0, label := "list", returns := .int, invariant := true } fun _ =>
    array [int 1, present (double ⟨0x7ff8000000000000⟩) .double]

/-- The map equals itself through a promise of another type; the list does not, because of the
double at its bottom. -/
theorem equal_self_iff_samples :
    Everywhere SteadyHere miscastMap ∧ (miscastMap.equal miscastMap []).1 = true ∧
      Everywhere SteadyHere hiddenNaN ∧ (hiddenNaN.equal hiddenNaN []).1 = false := by
  have hmap : Everywhere SteadyHere miscastMap :=
    everywhere_miscastMap ⟨fun _ _ => rfl, trivial⟩ ⟨trivial, distinct_mixedEntries⟩
      ⟨trivial, trivial⟩ ⟨trivial, trivial⟩ ⟨trivial, trivial⟩
  have hpromised : Everywhere Promised miscastMap :=
    everywhere_miscastMap rfl trivial trivial trivial trivial
  have hnumeric : Everywhere Numeric miscastMap :=
    everywhere_miscastMap trivial trivial trivial trivial trivial
  have hlist : Everywhere SteadyHere hiddenNaN := by
    refine everywhere_lazy_iff.2 ⟨⟨fun _ _ => rfl, trivial⟩, fun _ => ?_⟩
    refine everywhere_array_iff.2 ⟨⟨trivial, trivial⟩, ?_⟩
    simp only [List.forall_mem_cons]
    refine ⟨everywhere_of_no_part ⟨trivial, trivial⟩ nofun, ?_, List.forall_mem_nil _⟩
    exact everywhere_present_iff.2 ⟨⟨trivial, trivial⟩,
      everywhere_of_no_part ⟨trivial, trivial⟩ nofun⟩
  refine ⟨hmap, (equal_self_iff hmap []).2 ⟨hpromised, hnumeric⟩, hlist, ?_⟩
  rw [Bool.eq_false_iff, ne_eq, equal_self_iff hlist]
  rintro ⟨-, hnumbers⟩
  have hslot := (hnumbers.result []).item (List.mem_cons_of_mem _ (List.mem_cons_self ..))
  have hdouble : Double.isNaN ⟨0x7ff8000000000000⟩ = false := hslot.inner.here
  exact absurd hdouble (by decide)

end Value

end TemplateRender
