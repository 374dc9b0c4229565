import TemplateRender.Value.Resolve

/-!
An order of depth on values, for recursions that follow `resolve` and not the syntax of a value.
The parts of a value are what it holds and, for a lazy value, everything that it may compute. One
value is at most as deep as another if each of its parts is at most as deep as some part of the
other. Since a computation may have infinitely many results of growing depth, no number can
stand for the depth, but the order is well founded all the same. Main statements: resolving never
makes a value deeper (`atMost_resolve`), and resolving a wrapped invariant value makes it strictly
less deep (`shallower_resolve`).
-/
namespace TemplateRender.Value

/-- `Part p v`: the value `p` is held or may be computed by `v`. -/
inductive Part : Value → Value → Prop where
  | item {v : Value} {items : List Value} : v ∈ items → Part v (array items)
  | entry {key : String} {v : Value} {entries : Entries Value} :
      (key, v) ∈ entries → Part v (map entries)
  | inner (v : Value) (declared : ValueType) : Part v (present v declared)
  | result (task : Task) (compute : History → Value) (history : History) :
      Part (compute history) (lazy task compute)

mutual

theorem part_acc : ∀ v : Value, Acc Part v
  | array items => ⟨_, fun _ h => by cases h with | item hmem => exact items_acc items _ hmem⟩
  | map entries =>
    ⟨_, fun _ h => by cases h with | entry hmem => exact entries_acc entries _ _ hmem⟩
  | present inner _ => ⟨_, fun _ h => by cases h; exact part_acc inner⟩
  | lazy _ compute =>
    ⟨_, fun _ h => by cases h with | result _ _ history => exact part_acc (compute history)⟩
  | bool _ => ⟨_, fun _ h => nomatch h⟩
  | int _ => ⟨_, fun _ h => nomatch h⟩
  | double _ => ⟨_, fun _ h => nomatch h⟩
  | str _ => ⟨_, fun _ h => nomatch h⟩
  | bytes _ => ⟨_, fun _ h => nomatch h⟩
  | nil _ => ⟨_, fun _ h => nomatch h⟩

theorem items_acc : ∀ (items : List Value) (v : Value), v ∈ items → Acc Part v
  | w :: rest, v, h => by
    rcases List.mem_cons.1 h with heq | hmem
    · exact heq ▸ part_acc w
    · exact items_acc rest v hmem

theorem entries_acc : ∀ (entries : Entries Value) (key : String) (v : Value),
    (key, v) ∈ entries → Acc Part v
  | (_, w) :: rest, key, v, h => by
    rcases List.mem_cons.1 h with heq | hmem
    · exact (Prod.mk.inj heq).2 ▸ part_acc w
    · exact entries_acc rest key v hmem

end

theorem part_wf : WellFounded Part := ⟨part_acc⟩

/-- Each part of the first value is at most as deep as a chosen part of the second. -/
inductive AtMost : Value → Value → Prop where
  | intro {a b : Value} (choose : ∀ p, Part p a → Value)
      (part : ∀ p (h : Part p a), Part (choose p h) b)
      (le : ∀ p (h : Part p a), AtMost p (choose p h)) : AtMost a b

theorem AtMost.exists_part {a b p : Value} (hab : AtMost a b) (hp : Part p a) :
    ∃ q, Part q b ∧ AtMost p q := by
  cases hab with
  | intro choose part le => exact ⟨choose p hp, part p hp, le p hp⟩

theorem atMost_of_parts {a b : Value} (h : ∀ p, Part p a → ∃ q, Part q b ∧ AtMost p q) :
    AtMost a b :=
  .intro (fun p hp => (h p hp).choose) (fun p hp => (h p hp).choose_spec.1)
    (fun p hp => (h p hp).choose_spec.2)

theorem atMost_refl (v : Value) : AtMost v v := by
  induction part_acc v with
  | intro v _ ih => exact atMost_of_parts fun p hp => ⟨p, hp, ih p hp⟩

theorem AtMost.trans {a b c : Value} (hab : AtMost a b) (hbc : AtMost b c) : AtMost a c := by
  induction hab generalizing c with
  | intro choose part _ ih =>
    apply atMost_of_parts
    intro p hp
    obtain ⟨q, hq, hle⟩ := hbc.exists_part (part p hp)
    exact ⟨q, hq, ih p hp hle⟩

/-- A value is strictly less deep than another if it is at most as deep as a part of it. -/
def Shallower (a b : Value) : Prop := ∃ p, Part p b ∧ AtMost a p

theorem Part.shallower {p v : Value} (h : Part p v) : Shallower p v := ⟨p, h, atMost_refl p⟩

theorem atMost_of_part {p v : Value} (h : Part p v) : AtMost p v := by
  induction part_acc p generalizing v with
  | intro p _ ih => exact atMost_of_parts fun q hq => ⟨p, h, ih q hq hq⟩

theorem AtMost.trans_shallower {a b c : Value} (hab : AtMost a b) (hbc : Shallower b c) :
    Shallower a c := by
  obtain ⟨p, hp, hle⟩ := hbc
  exact ⟨p, hp, hab.trans hle⟩

theorem Shallower.trans_atMost {a b c : Value} (hab : Shallower a b) (hbc : AtMost b c) :
    Shallower a c := by
  obtain ⟨p, hp, hle⟩ := hab
  obtain ⟨q, hq, hpq⟩ := hbc.exists_part hp
  exact ⟨q, hq, hle.trans hpq⟩

/-- Of a pair neither value gets deeper and one gets strictly less deep. -/
def PairShallower (s t : Value × Value) : Prop :=
  AtMost s.1 t.1 ∧ AtMost s.2 t.2 ∧ (Shallower s.1 t.1 ∨ Shallower s.2 t.2)

theorem pairShallower_acc (a b c d : Value) (hc : AtMost c a) (hd : AtMost d b) :
    Acc PairShallower (c, d) := by
  induction part_acc a generalizing b c d with
  | intro a _ iha =>
    induction part_acc b generalizing c d with
    | intro b _ ihb =>
      refine ⟨_, fun ⟨e, f⟩ ⟨he, hf, hstrict⟩ => ?_⟩
      rcases hstrict with hlt | hlt
      · obtain ⟨p, hp, hle⟩ := hlt.trans_atMost hc
        exact iha p hp b e f hle (hf.trans hd)
      · obtain ⟨p, hp, hle⟩ := hlt.trans_atMost hd
        exact ihb p hp e f (he.trans hc) hle

theorem pairShallower_wf : WellFounded PairShallower :=
  ⟨fun (a, b) => pairShallower_acc a b a b (atMost_refl a) (atMost_refl b)⟩

instance : WellFoundedRelation (Value × Value) := ⟨PairShallower, pairShallower_wf⟩

mutual

theorem atMost_resolve : ∀ (v : Value) (history : History), AtMost (v.resolve history).1 v
  | array items, history => by
    unfold resolve
    split
    · apply atMost_of_parts
      intro p hp
      cases hp with
      | item hmem =>
        obtain ⟨q, hq, hle⟩ := exists_mem_of_mem_resolveItems items history p hmem
        exact ⟨q, .item hq, hle⟩
    · exact atMost_refl _
  | map entries, history => by
    unfold resolve
    split
    · apply atMost_of_parts
      intro p hp
      cases hp with
      | entry hmem =>
        obtain ⟨key, q, hq, hle⟩ := exists_mem_of_mem_resolveEntries entries history _ p hmem
        exact ⟨q, .entry hq, hle⟩
    · exact atMost_refl _
  | present inner declared, history => by
    unfold resolve
    split
    · exact atMost_of_part (.inner inner declared)
    · exact atMost_refl _
  | lazy task compute, history => by
    unfold resolve
    split
    · exact (atMost_resolve (compute history) (.ran task :: history)).trans
        (atMost_of_part (.result task compute history))
    · exact atMost_refl _
  | bool _, _ => atMost_refl _
  | int _, _ => atMost_refl _
  | double _, _ => atMost_refl _
  | str _, _ => atMost_refl _
  | bytes _, _ => atMost_refl _
  | nil _, _ => atMost_refl _

theorem exists_mem_of_mem_resolveItems : ∀ (items : List Value) (history : History) (p : Value),
    p ∈ (resolveItems items history).1 → ∃ q ∈ items, AtMost p q
  | [], _, _, h => by simp [resolveItems] at h
  | v :: rest, history, p, h => by
    simp only [resolveItems, RunM.bind_apply, RunM.pure_apply, List.mem_cons] at h
    rcases h with heq | hmem
    · exact ⟨v, List.mem_cons_self .., heq ▸ atMost_resolve v history⟩
    · obtain ⟨q, hq, hle⟩ := exists_mem_of_mem_resolveItems rest _ p hmem
      exact ⟨q, List.mem_cons_of_mem _ hq, hle⟩

theorem exists_mem_of_mem_resolveEntries : ∀ (entries : Entries Value) (history : History)
    (key : String) (p : Value), (key, p) ∈ (resolveEntries entries history).1 →
      ∃ key q, (key, q) ∈ entries ∧ AtMost p q
  | [], _, _, _, h => by simp [resolveEntries] at h
  | (k, v) :: rest, history, key, p, h => by
    simp only [resolveEntries, RunM.bind_apply, RunM.pure_apply, List.mem_cons] at h
    rcases h with heq | hmem
    · exact ⟨k, v, List.mem_cons_self .., (Prod.mk.inj heq).2 ▸ atMost_resolve v history⟩
    · obtain ⟨key, q, hq, hle⟩ := exists_mem_of_mem_resolveEntries rest _ key p hmem
      exact ⟨key, q, List.mem_cons_of_mem _ hq, hle⟩

end

theorem shallower_resolve (v : Value) (history : History) (hwrapped : v.isWrapped = true)
    (hinvariant : v.isInvariant = true) : Shallower (v.resolve history).1 v := by
  cases v with
  | present inner declared =>
    simp only [isInvariant] at hinvariant
    simp only [resolve, hinvariant, if_true, RunM.pure_apply]
    exact (Part.inner inner declared).shallower
  | lazy task compute =>
    simp only [isInvariant] at hinvariant
    simp only [resolve, hinvariant, if_true, RunM.bind_apply, record_apply]
    exact (atMost_resolve _ _).trans_shallower (Part.result task compute history).shallower
  | _ => simp [isWrapped] at hwrapped

end TemplateRender.Value
