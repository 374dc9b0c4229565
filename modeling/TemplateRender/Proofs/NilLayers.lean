import TemplateRender.Proofs.Equated

/-!
Layers that come down to nil. A nil equals every other nil, but two layers must declare the same
type to be equal, so what is nil on both sides can still differ by its layers. Where two values
hold no such layers of different types at one and the same place (`NilsAgree`), truthful values
are equal exactly when every task is promised to be pure and they are structurally the same
without their layers (`equated_iff`). Main statements: as far as the layers over nil agree,
equality is transitive (`equal_trans_of_nilsAgree`) and blind to a slot around one side
(`equal_wrap_of_nilsAgree`). Beside them stand values with such layers for which neither holds.
-/
namespace TemplateRender

theorem Double.equal_trans {x y z : Double} (hxy : x.equal y = true) (hyz : y.equal z = true) :
    x.equal z = true := by
  simp only [equal, Bool.and_eq_true, Bool.or_eq_true, beq_iff_eq] at hxy hyz ⊢
  refine ⟨⟨hxy.1.1, hyz.1.2⟩, ?_⟩
  rcases hxy.2 with rfl | hzero
  · exact hyz.2
  · rcases hyz.2 with rfl | hzero'
    · exact Or.inr hzero
    · exact Or.inr ⟨hzero.1, hzero'.2⟩

namespace Value

theorem Same.trans {a b c : Value} (hab : Same a b) (hbc : Same b c) : Same a c := by
  induction hab generalizing c with
  | bool b => exact hbc
  | int n => exact hbc
  | str text => exact hbc
  | bytes data => exact hbc
  | double hxy =>
    cases hbc with
    | double hyz => exact .double (Double.equal_trans hxy hyz)
  | nil left middle =>
    cases hbc with
    | nil _ right => exact .nil left right
  | @array xs ys hxy _ ih =>
    cases hbc with
    | @array _ zs hyz hitems =>
      refine .array (hxy.trans hyz) fun i x z hx hz => ?_
      obtain ⟨hi, _⟩ := List.getElem?_eq_some_iff.1 hx
      have hy := List.getElem?_eq_getElem (show i < ys.length from hxy ▸ hi)
      exact ih i x _ hx hy (hitems i _ z hy hz)
  | @map xs ys hxy _ ih =>
    cases hbc with
    | @map _ zs hyz hvalues =>
      refine .map (hxy.trans hyz) fun key x z hx hz => ?_
      obtain ⟨y, hy⟩ := hxy.exists_get? hx
      exact ih key x y hx hy (hvalues key y z hy hz)

theorem Same.isNil_eq {a b : Value} (h : Same a b) : a.isNil = b.isNil := by
  cases h with
  | _ => rfl

theorem sameDeclared_iff {a b : Value} : sameDeclared a b = true ↔
    (a.isWrapped = true → b.isWrapped = true → a.type = b.type) := by
  cases ha : a.isWrapped <;> cases hb : b.isWrapped <;> simp [sameDeclared, ha, hb]

/-- One step down into a container. -/
inductive Step where
  | index (i : Nat)
  | key (name : String)

/-- `HeldAt v place p`: going down from `v` by the steps of the place leads to `p`. Layers on the
way are passed without a step, so several values may be held at one place. -/
inductive HeldAt : Value → List Step → Value → Prop where
  | here (v : Value) : HeldAt v [] v
  | inner {v p : Value} {place : List Step} {declared : ValueType} :
      HeldAt v place p → HeldAt (present v declared) place p
  | result {task : Task} {compute : History → Value} {history : History} {p : Value}
      {place : List Step} : HeldAt (compute history) place p → HeldAt (lazy task compute) place p
  | item {items : List Value} {i : Nat} {v p : Value} {place : List Step} :
      items[i]? = some v → HeldAt v place p → HeldAt (array items) (.index i :: place) p
  | entry {entries : Entries Value} {name : String} {v p : Value} {place : List Step} :
      Entries.get? entries name = some v → HeldAt v place p →
      HeldAt (map entries) (.key name :: place) p

/-- A layer that comes down to nil. -/
structure OverNil (v : Value) : Prop where
  wrapped : v.isWrapped = true
  isNil : v.bare.isNil = true

/-- Layers over nil that the two values hold at one place declare the same type. -/
def NilsAgree (a b : Value) : Prop :=
  ∀ place p q, HeldAt a place p → HeldAt b place q → OverNil p → OverNil q → p.type = q.type

/-- Resolving leaves the layers that remain where they are. -/
theorem heldAt_of_resolve {v p : Value} {place : List Step} {history : History}
    (hv : Everywhere Steady v) (h : HeldAt (v.resolve history).1 place p)
    (hp : p.isWrapped = true) : HeldAt v place p := by
  induction hv generalizing history place with
  | @intro v _ parts ih =>
    cases v with
    | array items =>
      rw [resolve_array_of_steady fun w hw => parts w (.item hw)] at h
      split at h
      · cases h with
        | here => simp [isWrapped] at hp
        | item hget h =>
          rw [List.getElem?_map, Option.map_eq_some_iff] at hget
          obtain ⟨v, hv, rfl⟩ := hget
          exact .item hv (ih v (.item (List.mem_of_getElem? hv)) h)
      · exact h
    | map entries =>
      rw [resolve_map_of_steady fun k w hw => parts w (.entry hw)] at h
      split at h
      · cases h with
        | here => simp [isWrapped] at hp
        | entry hget h =>
          rw [Entries.get?_map (fun _ (w : Value) => (w.resolve []).1),
            Option.map_eq_some_iff] at hget
          obtain ⟨v, hv, rfl⟩ := hget
          exact .entry hv (ih v (.entry (Entries.mem_of_get? hv)) h)
      · exact h
    | present inner declared =>
      simp only [resolve, RunM.pure_apply] at h
      split at h
      · exact .inner h
      · exact h
    | lazy task compute =>
      unfold resolve at h
      split at h
      · exact .result (ih (compute history) (.result task compute history) h)
      · exact h
    | _ => exact h

theorem nilsAgree_array_iff {xs ys : List Value} : NilsAgree (array xs) (array ys) ↔
    ∀ (i : Nat) (x y : Value), xs[i]? = some x → ys[i]? = some y → NilsAgree x y := by
  constructor
  · exact fun h i x y hx hy place p q hp hq =>
      h (.index i :: place) p q (.item hx hp) (.item hy hq)
  · intro h place p q hp hq hpnil hqnil
    cases hp with
    | here => cases hpnil.wrapped
    | item hx hp =>
      cases hq with
      | item hy hq => exact h _ _ _ hx hy _ p q hp hq hpnil hqnil

namespace NilsAgree

variable {a b : Value}

theorem resolve (h : NilsAgree a b) (ha : Everywhere Steady a) (hb : Everywhere Steady b)
    (before after : History) : NilsAgree (a.resolve before).1 (b.resolve after).1 :=
  fun place p q hp hq hpnil hqnil => h place p q (heldAt_of_resolve ha hp hpnil.wrapped)
    (heldAt_of_resolve hb hq hqnil.wrapped) hpnil hqnil

theorem entry {xs ys : Entries Value} (h : NilsAgree (map xs) (map ys)) {key : String}
    {x y : Value} (hx : Entries.get? xs key = some x) (hy : Entries.get? ys key = some y) :
    NilsAgree x y :=
  fun place p q hp hq => h (.key key :: place) p q (.entry hx hp) (.entry hy hq)

/-- Truthful layers over the same bare value declare the same type, or one of them is missing. -/
theorem sameDeclared (h : NilsAgree a b) (ha : Everywhere Truthful a) (hb : Everywhere Truthful b)
    (hsame : Same a.bare b.bare) : sameDeclared a b = true := by
  refine sameDeclared_iff.2 fun hwrappeda hwrappedb => ?_
  cases hnil : a.bare.isNil with
  | true =>
    exact h [] a b (.here a) (.here b) ⟨hwrappeda, hnil⟩ ⟨hwrappedb, hsame.isNil_eq ▸ hnil⟩
  | false => rw [← type_bare ha, ← type_bare hb, hsame.type_eq hnil]

end NilsAgree

/-- At one value, besides steadiness: a layer declares the type of what it holds. -/
structure TypedHere (v : Value) : Prop extends SteadyHere v where
  truthful : Truthful v

theorem contentBlind_typedHere : ContentBlind TypedHere where
  array items := ⟨contentBlind_steadyHere.array items, trivial⟩
  map hkeys h := ⟨contentBlind_steadyHere.map hkeys h.toSteadyHere, trivial⟩

/-- At one value, besides that: a task is promised to be pure. -/
structure PureHere (v : Value) : Prop extends TypedHere v where
  promised : Promised v

theorem contentBlind_pureHere : ContentBlind PureHere where
  array items := ⟨contentBlind_typedHere.array items, trivial⟩
  map hkeys h := ⟨contentBlind_typedHere.map hkeys h.toTypedHere, trivial⟩

namespace Everywhere

variable {v : Value}

theorem withPromise (htyped : Everywhere TypedHere v) (hpromised : Everywhere Promised v) :
    Everywhere PureHere v := by
  induction htyped with
  | intro here _ ih => exact .intro ⟨here, hpromised.here⟩ fun p hp => ih p hp (hpromised.part hp)

theorem ofTyped (h : Everywhere TypedHere v) : Everywhere SteadyHere v :=
  h.imp fun _ h => h.toSteadyHere

theorem ofPure (h : Everywhere PureHere v) : Everywhere TypedHere v :=
  h.imp fun _ h => h.toTypedHere

theorem truthful (h : Everywhere TypedHere v) : Everywhere Truthful v := h.imp fun _ h => h.truthful

theorem isInvariant (h : Everywhere PureHere v) : v.isInvariant = true :=
  isInvariant_of_promised (h.imp fun _ h => h.promised)

end Everywhere

/-- No comparison on the way is refused. The recursion is that of the comparison itself. -/
theorem equated_of_same {a b : Value} (ha : Everywhere PureHere a) (hb : Everywhere PureHere b)
    (hnils : NilsAgree a b) (hsame : Same a.bare b.bare) (history : History) : Equated a b := by
  fun_induction equal a b history with
  | case1 a b history hwrapped hopen left right ih =>
    have hsteadya := ha.ofPure.ofTyped.steady
    have hsteadyb := hb.ofPure.ofTyped.steady
    simp only [Bool.and_eq_true] at hopen
    refine .opened hwrapped hopen.1.1 hopen.1.2 hopen.2 ?_
    rw [resolve_steady hsteadya [] history, resolve_steady hsteadyb [] left.2]
    refine ih (ha.resolve contentBlind_pureHere history) (hb.resolve contentBlind_pureHere left.2)
      (hnils.resolve hsteadya hsteadyb history left.2) ?_
    rwa [bare_resolve hsteadya, bare_resolve hsteadyb]
  | case2 a b history _ hrefused =>
    have hdeclared := hnils.sameDeclared ha.ofPure.truthful hb.ofPure.truthful hsame
    simp [ha.isInvariant, hb.isInvariant, hdeclared] at hrefused
  | case3 history left right => exact .nil left right
  | case4 history x y =>
    cases hsame
    exact .bool x
  | case5 history x y =>
    cases hsame
    exact .int x
  | case6 history x y =>
    cases hsame with
    | double h => exact .double h
  | case7 history x y =>
    cases hsame
    exact .str x
  | case8 history x y =>
    cases hsame
    exact .bytes x
  | case9 history xs ys hopen _ ih =>
    obtain ⟨hlength, hitems⟩ := same_array_iff.1 hsame
    refine .array ha.isInvariant hb.isInvariant hlength fun i x y hx hy => ?_
    have hmemx := List.mem_of_getElem? hx
    have hmemy := List.mem_of_getElem? hy
    exact ih x hmemx y hmemy [] (ha.item hmemx) (hb.item hmemy)
      (nilsAgree_array_iff.1 hnils i x y hx hy) (hitems i x y hx hy)
  | case10 history xs ys hrefused =>
    have hlength := (same_array_iff.1 hsame).1
    have hinvarianta := ha.isInvariant
    have hinvariantb := hb.isInvariant
    simp only [isInvariant] at hinvarianta hinvariantb
    simp [hinvarianta, hinvariantb, hlength] at hrefused
  | case11 history xs ys hopen _ ih =>
    obtain ⟨hkeys, hvalues⟩ := same_map_iff.1 hsame
    refine .map ha.isInvariant hb.isInvariant hkeys fun key x y hx hy => ?_
    have hmemx := Entries.mem_of_get? hx
    have hmemy := Entries.mem_of_get? hy
    exact ih x ⟨key, hmemx⟩ y ⟨key, hmemy⟩ [] (ha.entry hmemx) (hb.entry hmemy)
      (hnils.entry hx hy) (hvalues key x y hx hy)
  | case12 history xs ys hrefused =>
    have hlength := ((same_map_iff_walk ha.here.distinct hb.here.distinct).1 hsame).1
    have hinvarianta := ha.isInvariant
    have hinvariantb := hb.isInvariant
    simp only [isInvariant] at hinvarianta hinvariantb
    simp [hinvarianta, hinvariantb, hlength] at hrefused
  | case13 a b history hwrapped hnil hbool hint hdouble hstr hbytes harray hmap =>
    simp only [Bool.or_eq_true, not_or, Bool.not_eq_true] at hwrapped
    have hkind : a.kind = b.kind :=
      (kind_bare hwrapped.1).symm.trans (hsame.kind_eq.trans (kind_bare hwrapped.2))
    cases a <;> cases b
    case nil.nil left right => exact .nil left right
    case bool.bool x y => exact absurd rfl (hbool x y rfl)
    case int.int x y => exact absurd rfl (hint x y rfl)
    case double.double x y => exact absurd rfl (hdouble x y rfl)
    case str.str x y => exact absurd rfl (hstr x y rfl)
    case bytes.bytes x y => exact absurd rfl (hbytes x y rfl)
    case array.array xs ys => exact absurd rfl (harray xs ys rfl)
    case map.map xs ys => exact absurd rfl (hmap xs ys rfl)
    -- Different kinds are left, and layers, of which there are none.
    all_goals simp [isWrapped, kind, type] at hwrapped hkind

/-- Where layers over nil agree, truthful values are equal exactly when they promise every task to
be pure and are structurally the same without their layers. -/
theorem equated_iff {a b : Value} (ha : Everywhere TypedHere a) (hb : Everywhere TypedHere b)
    (hnils : NilsAgree a b) : Equated a b ↔
      Everywhere Promised a ∧ Everywhere Promised b ∧ Same a.bare b.bare := by
  constructor
  · intro h
    obtain ⟨hleft, hright⟩ := h.promised ha.ofTyped hb.ofTyped
    exact ⟨hleft, hright, h.same_bare ha.ofTyped hb.ofTyped⟩
  · rintro ⟨hleft, hright, hsame⟩
    exact equated_of_same (ha.withPromise hleft) (hb.withPromise hright) hnils hsame []

/-- Equality is transitive as far as the layers over nil of the outer values agree. -/
theorem equal_trans_of_nilsAgree {a b c : Value} (ha : Everywhere TypedHere a)
    (hb : Everywhere TypedHere b) (hc : Everywhere TypedHere c) (hnils : NilsAgree a c)
    (first second third : History) (hab : (a.equal b first).1 = true)
    (hbc : (b.equal c second).1 = true) : (a.equal c third).1 = true := by
  rw [equal_iff_equated ha.ofTyped hb.ofTyped] at hab
  rw [equal_iff_equated hb.ofTyped hc.ofTyped] at hbc
  rw [equal_iff_equated ha.ofTyped hc.ofTyped, equated_iff ha hc hnils]
  have hleft := (hab.promised ha.ofTyped hb.ofTyped).1
  have hright := (hbc.promised hb.ofTyped hc.ofTyped).2
  exact ⟨hleft, hright,
    (hab.same_bare ha.ofTyped hb.ofTyped).trans (hbc.same_bare hb.ofTyped hc.ofTyped)⟩

section Samples

/-- A slot that holds a nil of its own type. -/
def slotOfNil (declared : ValueType) : Value := present (nil declared) declared

/-- A promise of a nil of its own type. -/
def promiseOfNil (declared : ValueType) : Value :=
  lazy { serial := 0, label := "nil", returns := declared, invariant := true } fun _ =>
    nil declared

variable (declared : ValueType)

theorem pure_nil : Everywhere PureHere (nil declared) :=
  everywhere_nil_iff.2 ⟨⟨⟨trivial, trivial⟩, trivial⟩, trivial⟩

theorem pure_slotOfNil : Everywhere PureHere (slotOfNil declared) :=
  everywhere_present_iff.2 ⟨⟨⟨⟨trivial, trivial⟩, rfl⟩, trivial⟩, pure_nil declared⟩

theorem pure_promiseOfNil : Everywhere PureHere (promiseOfNil declared) :=
  everywhere_lazy_iff.2 ⟨⟨⟨⟨fun _ _ => rfl, trivial⟩, fun _ => rfl⟩, rfl⟩, fun _ =>
    pure_nil declared⟩

theorem pure_singleton {v : Value} (h : Everywhere PureHere v) : Everywhere PureHere (array [v]) :=
  everywhere_array_iff.2 ⟨⟨⟨⟨trivial, trivial⟩, trivial⟩, trivial⟩, by simpa using h⟩

theorem not_equated_promisesOfNil {left right : ValueType} (h : left ≠ right) :
    ¬Equated (promiseOfNil left) (promiseOfNil right) := by
  intro hequated
  cases hequated with
  | opened _ _ _ hdeclared => exact h (sameDeclared_iff.1 hdeclared rfl rfl)

theorem forall_pairs_singleton {R : Value → Value → Prop} {x y : Value} :
    (∀ (i : Nat) (v w : Value), [x][i]? = some v → [y][i]? = some w → R v w) ↔ R x y := by
  refine ⟨fun h => h 0 x y rfl rfl, fun h i v w hv hw => ?_⟩
  cases i with
  | zero => exact Option.some.inj hv ▸ Option.some.inj hw ▸ h
  | succ i => cases hv

theorem equated_singleton_iff {x y : Value} (hx : x.isInvariant = true)
    (hy : y.isInvariant = true) : Equated (array [x]) (array [y]) ↔ Equated x y := by
  rw [equated_array_iff, forall_pairs_singleton]
  exact and_iff_right (by simp [itemsInvariant, hx, hy])

theorem nilsAgree_singletons :
    NilsAgree (array [slotOfNil .int]) (array [promiseOfNil .int]) := by
  rw [nilsAgree_array_iff, forall_pairs_singleton]
  intro place p q hp hq hpnil hqnil
  cases hp with
  | here =>
    cases hq with
    | here => rfl
    | result hq =>
      cases hq
      cases hqnil.wrapped
  | inner hp =>
    cases hp
    cases hpnil.wrapped

end Samples

theorem equal_trans_of_nilsAgree_list :
    NilsAgree (array [slotOfNil .int]) (array [promiseOfNil .int]) ∧
    ((array [slotOfNil .int]).equal (array [nil .void]) []).1 = true ∧
    ((array [nil .void]).equal (array [promiseOfNil .int]) []).1 = true ∧
    ((array [slotOfNil .int]).equal (array [promiseOfNil .int]) []).1 = true := by
  have hslot := (pure_singleton (pure_slotOfNil .int)).ofPure
  have hnil := (pure_singleton (pure_nil .void)).ofPure
  have hpromise := (pure_singleton (pure_promiseOfNil .int)).ofPure
  have hab : ((array [slotOfNil .int]).equal (array [nil .void]) []).1 = true := by
    rw [equal_iff_equated hslot.ofTyped hnil.ofTyped, equated_singleton_iff rfl rfl]
    exact .opened rfl rfl rfl rfl (.nil .int .void)
  have hbc : ((array [nil .void]).equal (array [promiseOfNil .int]) []).1 = true := by
    rw [equal_iff_equated hnil.ofTyped hpromise.ofTyped, equated_singleton_iff rfl rfl]
    exact .opened rfl rfl rfl rfl (.nil .void .int)
  exact ⟨nilsAgree_singletons, hab, hbc, equal_trans_of_nilsAgree hslot hnil hpromise
    nilsAgree_singletons [] [] [] hab hbc⟩

/-- Two promises of different types that each give nil equal the same nil, but not each other. -/
theorem promisesOfNil_not_trans :
    (Everywhere PureHere (promiseOfNil .int) ∧ Everywhere PureHere (nil .int) ∧
      Everywhere PureHere (promiseOfNil .string)) ∧
    ((promiseOfNil .int).equal (nil .int) []).1 = true ∧
    ((nil .int).equal (promiseOfNil .string) []).1 = true ∧
    ((promiseOfNil .int).equal (promiseOfNil .string) []).1 = false := by
  have hint := pure_promiseOfNil .int
  have hnil := pure_nil .int
  have hstring := pure_promiseOfNil .string
  refine ⟨⟨hint, hnil, hstring⟩, ?_, ?_, ?_⟩
  · rw [equal_iff_equated hint.ofPure.ofTyped hnil.ofPure.ofTyped]
    exact .opened rfl rfl rfl rfl (.nil .int .int)
  · rw [equal_iff_equated hnil.ofPure.ofTyped hstring.ofPure.ofTyped]
    exact .opened rfl rfl rfl rfl (.nil .int .string)
  · rw [← Bool.not_eq_true, equal_iff_equated hint.ofPure.ofTyped hstring.ofPure.ofTyped]
    exact not_equated_promisesOfNil (by decide)

section Wrap

variable {v w : Value}

theorem bare_wrap (v : Value) : v.wrap.bare = v.bare := by
  cases v with
  | _ => rfl

theorem everywhere_wrap {P : Value → Prop} (hP : P (present v v.type)) (h : Everywhere P v) :
    Everywhere P v.wrap := by
  cases v with
  | nil | present => exact h
  | _ => exact everywhere_present_iff.2 ⟨hP, h⟩

theorem promised_wrap_iff : Everywhere Promised v.wrap ↔ Everywhere Promised v := by
  refine ⟨fun h => ?_, everywhere_wrap trivial⟩
  cases v with
  | nil | present => exact h
  | _ => exact h.inner

/-- The slot around a value is a layer over nil only if the value is one, of the same type. -/
theorem NilsAgree.wrap (h : NilsAgree v w) : NilsAgree v.wrap w := by
  intro place p q hp hq hpnil hqnil
  cases v with
  | nil | present => exact h place p q hp hq hpnil hqnil
  | lazy task compute =>
    cases hp with
    | here => exact h [] (.lazy task compute) q (.here _) hq ⟨rfl, hpnil.isNil⟩ hqnil
    | inner hp => exact h place p q hp hq hpnil hqnil
  | _ =>
    cases hp with
    | here => cases hpnil.isNil
    | inner hp => exact h place p q hp hq hpnil hqnil

/-- A slot around one side changes no comparison as far as the layers over nil agree. -/
theorem equal_wrap_of_nilsAgree (hv : Everywhere TypedHere v) (hw : Everywhere TypedHere w)
    (hnils : NilsAgree v w) (before after : History) :
    (v.wrap.equal w before).1 = (v.equal w after).1 := by
  have hwrap : Everywhere TypedHere v.wrap := everywhere_wrap ⟨⟨trivial, trivial⟩, rfl⟩ hv
  rw [Bool.eq_iff_iff, equal_iff_equated hwrap.ofTyped hw.ofTyped,
    equal_iff_equated hv.ofTyped hw.ofTyped, equated_iff hwrap hw hnils.wrap,
    equated_iff hv hw hnils, promised_wrap_iff, bare_wrap]

/-- A slot and a promise of one type, each over nil, in two lists. -/
theorem equal_wrap_of_nilsAgree_list :
    Everywhere TypedHere (array [slotOfNil .int]) ∧
    Everywhere TypedHere (array [promiseOfNil .int]) ∧
    ((array [slotOfNil .int]).wrap.equal (array [promiseOfNil .int]) []).1 =
      ((array [slotOfNil .int]).equal (array [promiseOfNil .int]) []).1 := by
  have hslot := (pure_singleton (pure_slotOfNil .int)).ofPure
  have hpromise := (pure_singleton (pure_promiseOfNil .int)).ofPure
  exact ⟨hslot, hpromise, equal_wrap_of_nilsAgree hslot hpromise nilsAgree_singletons [] []⟩

/-- A slot around one list has the elements of the other list resolved, so that two promises of
different types that each give nil are no longer told apart. -/
theorem equal_wrap_lists_ne :
    (Everywhere TypedHere (array [promiseOfNil .string]) ∧
      Everywhere TypedHere (array [promiseOfNil .int])) ∧
    ((array [promiseOfNil .string]).equal (array [promiseOfNil .int]) []).1 = false ∧
    ((array [promiseOfNil .string]).wrap.equal (array [promiseOfNil .int]) []).1 = true := by
  have hstring := (pure_singleton (pure_promiseOfNil .string)).ofPure
  have hint := (pure_singleton (pure_promiseOfNil .int)).ofPure
  refine ⟨⟨hstring, hint⟩, ?_, ?_⟩
  · rw [← Bool.not_eq_true, equal_iff_equated hstring.ofTyped hint.ofTyped,
      equated_singleton_iff rfl rfl]
    exact not_equated_promisesOfNil (by decide)
  · have hwrap : Everywhere SteadyHere (array [promiseOfNil .string]).wrap :=
      everywhere_wrap ⟨trivial, trivial⟩ hstring.ofTyped
    rw [equal_iff_equated hwrap hint.ofTyped]
    refine .opened rfl rfl rfl rfl ?_
    change Equated (array [promiseOfNil .string]) (array [nil .int])
    rw [equated_singleton_iff rfl rfl]
    exact .opened rfl rfl rfl rfl (.nil .string .int)

end Wrap

end Value

end TemplateRender
