import Mathlib.Data.Set.Finite.Lemmas
import Mathlib.SetTheory.Ordinal.Family
import TemplateRender.Proofs.Everywhere

/-!
How many layers stand on the way into a value: lazy values and present slots, counted along a path
that goes through containers and through what lazy values may answer. The number of a value is the
largest over all paths. A lazy value may have answers of any depth, so it is an ordinal; where it is
finite, a path attains it (`layers_eq_natCast_iff`). Resolving never adds layers and takes some from
an invariant value that has any (`layers_resolve_lt`), so that repeated resolving comes to an end
(`resolved_resolvedAfter`, `exists_resolved`).
-/
namespace TemplateRender.Value

/-- A path from the value down to one without parts meets so many layers. -/
inductive Crosses : Value → ℕ → Prop where
  | leaf {v : Value} : (∀ p, ¬Part p v) → Crosses v 0
  | through {p v : Value} {n : ℕ} : Part p v → v.isWrapped = false → Crosses p n → Crosses v n
  | layer {p v : Value} {n : ℕ} : Part p v → v.isWrapped = true → Crosses p n → Crosses v (n + 1)

theorem exists_crosses (v : Value) : ∃ n, Crosses v n := by
  induction part_acc v with
  | intro v _ ih =>
    by_cases hpart : ∃ p, Part p v
    · obtain ⟨p, hp⟩ := hpart
      obtain ⟨n, hn⟩ := ih p hp
      cases hwrapped : v.isWrapped with
      | true => exact ⟨n + 1, .layer hp hwrapped hn⟩
      | false => exact ⟨n, .through hp hwrapped hn⟩
    · exact ⟨0, .leaf fun p hp => hpart ⟨p, hp⟩⟩

/-- What the value itself adds to a path. -/
noncomputable def ownLayers (v : Value) : Ordinal.{0} := if v.isWrapped then 1 else 0

noncomputable def layers (v : Value) : Ordinal.{0} :=
  ⨆ p : {p // Part p v}, layers p.1 + v.ownLayers
termination_by part_wf.wrap v
decreasing_by exact p.2

variable {p v : Value} {history : History}

theorem layers_le_iff {o : Ordinal.{0}} :
    v.layers ≤ o ↔ ∀ p, Part p v → p.layers + v.ownLayers ≤ o := by
  rw [layers, Ordinal.iSup_le_iff, Subtype.forall]

theorem layers_add_le (h : Part p v) : p.layers + v.ownLayers ≤ v.layers :=
  layers_le_iff.1 le_rfl p h

theorem layers_part_le (h : Part p v) : p.layers ≤ v.layers :=
  le_self_add.trans (layers_add_le h)

theorem layers_part_lt (h : Part p v) (hwrapped : v.isWrapped = true) : p.layers < v.layers := by
  have hle := layers_add_le h
  rw [ownLayers, if_pos hwrapped] at hle
  exact Order.add_one_le_iff.1 hle

theorem exists_part_of_isWrapped (h : v.isWrapped = true) : ∃ p, Part p v := by
  cases v with
  | present inner declared => exact ⟨inner, .inner inner declared⟩
  | lazy task compute => exact ⟨compute [], .result task compute []⟩
  | _ => cases h

theorem layers_pos (h : v.isWrapped = true) : 0 < v.layers := by
  obtain ⟨p, hp⟩ := exists_part_of_isWrapped h
  exact zero_le.trans_lt (layers_part_lt hp h)

theorem not_isWrapped_of_layers_eq_zero (h : v.layers = 0) : v.isWrapped = false := by
  cases hwrapped : v.isWrapped with
  | true => exact absurd h (layers_pos hwrapped).ne'
  | false => rfl

theorem layers_le_of_not_isWrapped {o : Ordinal.{0}} (h : v.isWrapped = false)
    (hparts : ∀ p, Part p v → p.layers ≤ o) : v.layers ≤ o := by
  rw [layers_le_iff]
  intro p hp
  rw [ownLayers, h, if_neg Bool.false_ne_true, add_zero]
  exact hparts p hp

/-! The largest number of layers on a path. -/

theorem Crosses.le_layers {n : ℕ} (h : Crosses v n) : (n : Ordinal.{0}) ≤ v.layers := by
  induction h with
  | leaf => exact zero_le
  | through hp _ _ ih => exact ih.trans (layers_part_le hp)
  | layer hp hwrapped _ ih =>
    rw [Nat.cast_succ, Order.add_one_le_iff]
    exact ih.trans_lt (layers_part_lt hp hwrapped)

theorem layers_le_natCast_iff {n : ℕ} :
    v.layers ≤ n ↔ ∀ k, Crosses v k → k ≤ n := by
  refine ⟨fun h k hk => Nat.cast_le.1 (hk.le_layers.trans h), fun h => ?_⟩
  induction part_acc v generalizing n with
  | intro v _ ih =>
    cases hwrapped : v.isWrapped with
    | false =>
      refine layers_le_of_not_isWrapped hwrapped fun p hp => ih p hp fun k hk => ?_
      exact h k (.through hp hwrapped hk)
    | true =>
      rw [layers_le_iff]
      intro p hp
      -- Some path goes on through the part, and with the layer itself the bound is not zero.
      obtain ⟨k, hk⟩ := exists_crosses p
      obtain ⟨m, rfl⟩ : ∃ m, n = m + 1 :=
        Nat.exists_eq_add_of_le' ((Nat.le_add_left 1 k).trans (h _ (.layer hp hwrapped hk)))
      rw [ownLayers, if_pos hwrapped, Nat.cast_succ]
      have hle := ih p hp fun k hk => Nat.le_of_succ_le_succ (h _ (.layer hp hwrapped hk))
      gcongr

theorem layers_eq_natCast_iff {n : ℕ} :
    v.layers = n ↔ IsGreatest {k | Crosses v k} n := by
  constructor
  · intro h
    have hbound := layers_le_natCast_iff.1 h.le
    refine ⟨?_, hbound⟩
    by_contra hnone
    cases n with
    | zero =>
      obtain ⟨k, hk⟩ := exists_crosses v
      exact hnone (Nat.le_zero.1 (hbound k hk) ▸ hk)
    | succ n =>
      have hle : v.layers ≤ n := by
        refine layers_le_natCast_iff.2 fun k hk => ?_
        have hne : k ≠ n + 1 := by
          rintro rfl
          exact hnone hk
        exact Nat.le_of_lt_succ (lt_of_le_of_ne (hbound k hk) hne)
      exact absurd (Nat.cast_le.1 (h.symm.le.trans hle)) (by simp)
  · rintro ⟨hattained, hbound⟩
    exact le_antisymm (layers_le_natCast_iff.2 fun k hk => hbound hk) hattained.le_layers

/-! Resolving. -/

theorem exists_of_mem_resolveItems {items : List Value} (h : p ∈ (resolveItems items history).1) :
    ∃ q ∈ items, ∃ before, p = (q.resolve before).1 := by
  induction items generalizing history with
  | nil => simp [resolveItems] at h
  | cons v rest ih =>
    simp only [resolveItems, RunM.bind_apply, RunM.pure_apply, List.mem_cons] at h
    obtain heq | hmem := h
    · exact ⟨v, List.mem_cons_self .., history, heq⟩
    · obtain ⟨q, hq, hresolved⟩ := ih hmem
      exact ⟨q, List.mem_cons_of_mem _ hq, hresolved⟩

theorem exists_of_mem_resolveEntries {entries : Entries Value} {key : String}
    (h : (key, p) ∈ (resolveEntries entries history).1) :
    ∃ q, (key, q) ∈ entries ∧ ∃ before, p = (q.resolve before).1 := by
  induction entries generalizing history with
  | nil => simp [resolveEntries] at h
  | cons pair rest ih =>
    simp only [resolveEntries, RunM.bind_apply, RunM.pure_apply, List.mem_cons] at h
    obtain heq | hmem := h
    · obtain ⟨rfl, rfl⟩ := Prod.mk.inj heq
      exact ⟨pair.2, List.mem_cons_self .., history, rfl⟩
    · obtain ⟨q, hq, hresolved⟩ := ih hmem
      exact ⟨q, List.mem_cons_of_mem _ hq, hresolved⟩

/-- A settled value stays settled, and what it holds is what it held, resolved. -/
theorem exists_part_of_part_resolve (hwrapped : v.isWrapped = false)
    (hinvariant : v.isInvariant = true) (history : History) :
    (v.resolve history).1.isWrapped = false ∧ ∀ p, Part p (v.resolve history).1 →
      ∃ q, Part q v ∧ ∃ before, p = (q.resolve before).1 := by
  cases v with
  | array items =>
    rw [resolve_array hinvariant]
    refine ⟨rfl, fun p hp => ?_⟩
    cases hp with
    | item hmem =>
      obtain ⟨q, hq, hresolved⟩ := exists_of_mem_resolveItems hmem
      exact ⟨q, .item hq, hresolved⟩
  | map entries =>
    rw [resolve_map hinvariant]
    refine ⟨rfl, fun p hp => ?_⟩
    cases hp with
    | entry hmem =>
      obtain ⟨q, hq, hresolved⟩ := exists_of_mem_resolveEntries hmem
      exact ⟨q, .entry hq, hresolved⟩
  | present | lazy => cases hwrapped
  | _ => exact ⟨rfl, fun p hp => by cases hp⟩

/-- A layer gives what is in it, resolved or as it is. -/
theorem exists_part_resolve_eq (hwrapped : v.isWrapped = true) (hinvariant : v.isInvariant = true)
    (history : History) :
    ∃ p, Part p v ∧ ((v.resolve history).1 = p ∨
      ∃ before, (v.resolve history).1 = (p.resolve before).1) := by
  cases v with
  | present inner declared =>
    rw [resolve_present hinvariant]
    exact ⟨inner, .inner inner declared, .inl rfl⟩
  | lazy task compute =>
    rw [resolve_lazy hinvariant]
    exact ⟨compute history, .result task compute history, .inr ⟨_, rfl⟩⟩
  | _ => cases hwrapped

theorem isInvariant_part (hwrapped : v.isWrapped = false) (hinvariant : v.isInvariant = true)
    (hp : Part p v) : p.isInvariant = true := by
  cases hp with
  | item hmem => exact (itemsInvariant_iff _).1 hinvariant p hmem
  | entry hmem => exact (entriesInvariant_iff _).1 hinvariant _ hmem
  | inner | result => cases hwrapped

theorem layers_resolve_le (v : Value) (history : History) :
    (v.resolve history).1.layers ≤ v.layers := by
  induction part_acc v generalizing history with
  | intro v _ ih =>
    cases hinvariant : v.isInvariant with
    | false => rw [resolve_of_not_invariant hinvariant]
    | true =>
      cases hwrapped : v.isWrapped with
      | false =>
        obtain ⟨hwrapped', hparts⟩ := exists_part_of_part_resolve hwrapped hinvariant history
        refine layers_le_of_not_isWrapped hwrapped' fun p hp => ?_
        obtain ⟨q, hq, before, rfl⟩ := hparts p hp
        exact (ih q hq before).trans (layers_part_le hq)
      | true =>
        obtain ⟨p, hp, hresolved⟩ := exists_part_resolve_eq hwrapped hinvariant history
        obtain heq | ⟨before, heq⟩ := hresolved
        · exact heq ▸ layers_part_le hp
        · exact heq ▸ (ih p hp before).trans (layers_part_le hp)

theorem layers_resolve_lt_of_isWrapped (hwrapped : v.isWrapped = true)
    (hinvariant : v.isInvariant = true) (history : History) :
    (v.resolve history).1.layers < v.layers := by
  obtain ⟨p, hp, hresolved⟩ := exists_part_resolve_eq hwrapped hinvariant history
  obtain heq | ⟨before, heq⟩ := hresolved
  · exact heq ▸ layers_part_lt hp hwrapped
  · exact heq ▸ (layers_resolve_le p before).trans_lt (layers_part_lt hp hwrapped)

theorem finite_parts (hwrapped : v.isWrapped = false) : {p | Part p v}.Finite := by
  cases v with
  | array items =>
    refine (List.finite_toSet items).subset fun p hp => ?_
    cases hp with
    | item hmem => exact hmem
  | map entries =>
    refine (List.finite_toSet (entries.map Prod.snd)).subset fun p hp => ?_
    cases hp with
    | entry hmem => exact List.mem_map_of_mem (f := Prod.snd) hmem
  | present | lazy => cases hwrapped
  | _ => exact Set.finite_empty.subset fun p hp => by cases hp

/-- Some part of a container has all its layers. -/
theorem exists_part_layers_eq (hwrapped : v.isWrapped = false) (hpos : 0 < v.layers) :
    ∃ p, Part p v ∧ v.layers = p.layers := by
  have hnonempty : {p | Part p v}.Nonempty := by
    by_contra hnone
    refine hpos.not_ge (layers_le_of_not_isWrapped hwrapped fun p hp => ?_)
    exact absurd ⟨p, hp⟩ hnone
  obtain ⟨p, hp, hmax⟩ := Set.exists_max_image _ layers (finite_parts hwrapped) hnonempty
  exact ⟨p, hp, le_antisymm (layers_le_of_not_isWrapped hwrapped hmax) (layers_part_le hp)⟩

theorem layers_resolve_lt (hinvariant : v.isInvariant = true) (hpos : 0 < v.layers)
    (history : History) : (v.resolve history).1.layers < v.layers := by
  induction part_acc v generalizing history with
  | intro v _ ih =>
    cases hwrapped : v.isWrapped with
    | true => exact layers_resolve_lt_of_isWrapped hwrapped hinvariant history
    | false =>
      obtain ⟨hwrapped', hparts⟩ := exists_part_of_part_resolve hwrapped hinvariant history
      obtain hzero | hpos' := eq_zero_or_pos (v.resolve history).1.layers
      · rwa [hzero]
      -- Of the new container one part counts, and it has fewer layers than what it was before.
      · obtain ⟨p, hp, hall⟩ := exists_part_layers_eq hwrapped' hpos'
        obtain ⟨q, hq, before, rfl⟩ := hparts p hp
        rw [hall] at hpos' ⊢
        have hlt := ih q hq (isInvariant_part hwrapped hinvariant hq)
          (hpos'.trans_le (layers_resolve_le q before)) before
        exact hlt.trans_le (layers_part_le hq)

/-! Repeated resolving. -/

/-- Resolving changes the value no more, either because a computation in it is not promised to be
pure or because no layer is left. -/
structure Resolved (v : Value) : Prop where
  unchanged : ∀ history, v.resolve history = (v, history)
  settled : v.isInvariant = false ∨ Everywhere (fun w => w.isWrapped = false) v

theorem everywhere_of_layers_eq_zero (h : v.layers = 0) :
    Everywhere (fun w => w.isWrapped = false) v := by
  induction part_acc v with
  | intro v _ ih =>
    refine .intro (not_isWrapped_of_layers_eq_zero h) fun p hp => ih p hp ?_
    exact le_antisymm ((layers_part_le hp).trans h.le) zero_le

theorem resolveItems_of_unchanged {items : List Value}
    (h : ∀ v ∈ items, v.resolve history = (v, history)) :
    resolveItems items history = (items, history) := by
  induction items with
  | nil => rfl
  | cons v rest ih =>
    rw [resolveItems, RunM.bind_apply, h v (List.mem_cons_self ..), RunM.bind_apply,
      ih fun w hw => h w (List.mem_cons_of_mem _ hw), RunM.pure_apply]

theorem resolveEntries_of_unchanged {entries : Entries Value}
    (h : ∀ key v, (key, v) ∈ entries → v.resolve history = (v, history)) :
    resolveEntries entries history = (entries, history) := by
  induction entries with
  | nil => rfl
  | cons pair rest ih =>
    rw [resolveEntries, RunM.bind_apply, h pair.1 pair.2 (List.mem_cons_self ..), RunM.bind_apply,
      ih fun key w hw => h key w (List.mem_cons_of_mem _ hw), RunM.pure_apply]

theorem resolve_of_no_layers (h : Everywhere (fun w => w.isWrapped = false) v) (history : History) :
    v.resolve history = (v, history) := by
  induction h with
  | @intro v here parts ih =>
    cases hinvariant : v.isInvariant with
    | false => exact resolve_of_not_invariant hinvariant
    | true =>
      cases v with
      | array items =>
        rw [resolve_array hinvariant, resolveItems_of_unchanged fun w hw => ih w (.item hw)]
      | map entries =>
        rw [resolve_map hinvariant, resolveEntries_of_unchanged fun key w hw => ih w (.entry hw)]
      | present | lazy => cases here
      | _ => rfl

theorem resolved_of_not_invariant (h : v.isInvariant = false) : Resolved v :=
  ⟨fun _ => resolve_of_not_invariant h, .inl h⟩

theorem resolved_of_layers_eq_zero (h : v.layers = 0) : Resolved v :=
  ⟨resolve_of_no_layers (everywhere_of_layers_eq_zero h), .inr (everywhere_of_layers_eq_zero h)⟩

/-- As long as resolving has not come to its end, each further one takes layers away. -/
theorem resolved_or_layers_resolve_lt (v : Value) :
    Resolved v ∨ ∀ history, (v.resolve history).1.layers < v.layers := by
  cases hinvariant : v.isInvariant with
  | false => exact .inl (resolved_of_not_invariant hinvariant)
  | true =>
    obtain hzero | hpos := eq_zero_or_pos v.layers
    · exact .inl (resolved_of_layers_eq_zero hzero)
    · exact .inr (layers_resolve_lt hinvariant hpos)

/-- The value after `n` resolves in a row, where `histories i` is what has happened before the one
with number `i`. -/
def resolvedAfter (v : Value) (histories : ℕ → History) : ℕ → Value
  | 0 => v
  | n + 1 => ((resolvedAfter v histories n).resolve (histories n)).1

variable {histories : ℕ → History} {n : ℕ}

theorem Resolved.succ (h : Resolved (v.resolvedAfter histories n)) :
    Resolved (v.resolvedAfter histories (n + 1)) := by
  rw [resolvedAfter, h.unchanged]
  exact h

theorem resolved_or_layers_le {m : ℕ} (h : v.layers ≤ (m + n : ℕ)) :
    Resolved (v.resolvedAfter histories n) ∨ (v.resolvedAfter histories n).layers ≤ m := by
  induction n generalizing m with
  | zero => exact .inr h
  | succ n ih =>
    have hle : v.layers ≤ (m + 1 + n : ℕ) := by rwa [Nat.add_right_comm]
    obtain hresolved | hle := ih hle
    · exact .inl hresolved.succ
    · obtain hresolved | hlt := resolved_or_layers_resolve_lt (v.resolvedAfter histories n)
      · exact .inl hresolved.succ
      · refine .inr (Order.lt_add_one_iff.1 ((hlt (histories n)).trans_le ?_))
        rwa [Nat.cast_succ] at hle

theorem resolved_resolvedAfter (h : v.layers ≤ n) : Resolved (v.resolvedAfter histories n) := by
  have hle : v.layers ≤ (0 + n : ℕ) := by rwa [Nat.zero_add]
  obtain hresolved | hle := resolved_or_layers_le hle
  · exact hresolved
  · exact resolved_of_layers_eq_zero (by simpa using hle)

/-- However deep the answers of lazy values may be, finitely many resolves are enough. -/
theorem exists_resolved (v : Value) (histories : ℕ → History) :
    ∃ n, Resolved (v.resolvedAfter histories n) := by
  by_contra! hnone
  obtain ⟨n, hn⟩ := WellFounded.not_rel_apply_succ (r := (· < ·)) fun n =>
    (v.resolvedAfter histories n).layers
  obtain hresolved | hlt := resolved_or_layers_resolve_lt (v.resolvedAfter histories n)
  · exact hnone n hresolved
  · exact hn (hlt (histories n))

end TemplateRender.Value
