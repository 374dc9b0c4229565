import TemplateRender.Proofs.PlainEquality

/-!
Comparing values whose lazy values keep their answers. What such a value resolves to does not
depend on what ran before, so the answer of a comparison does not either, and the comparison can
be read as a relation between the two values alone (`Equated`). Main statements: the comparison
decides this relation (`equal_iff_equated`); it holds only between values that are structurally
the same without their layers and that promise every task to be pure (`Equated.same_bare`,
`Equated.promised`); and the two sides of a comparison can be exchanged
(`equal_comm_of_steady`).
-/
namespace TemplateRender

theorem Double.equal_swap (x y : Double) : x.equal y = y.equal x := by
  unfold equal
  rw [BEq.comm (a := x), Bool.and_comm x.isZero, Bool.and_comm (!x.isNaN)]

namespace Value

/-- At one value: a lazy value keeps its answer, and the keys of a map are distinct. -/
structure SteadyHere (v : Value) : Prop where
  steady : Steady v
  distinct : DistinctKeys v

theorem contentBlind_steadyHere : ContentBlind SteadyHere where
  array _ := ⟨trivial, trivial⟩
  map hkeys h := by
    refine ⟨trivial, ?_⟩
    have hdistinct := h.distinct
    simp only [DistinctKeys, Entries.Distinct, hkeys] at hdistinct
    exact hdistinct

theorem Everywhere.steady {v : Value} (h : Everywhere SteadyHere v) : Everywhere Steady v :=
  h.imp fun _ h => h.steady

theorem resolveItems_eq_map {items : List Value}
    (h : ∀ v ∈ items, ∀ before after, (v.resolve before).1 = (v.resolve after).1)
    (history : History) :
    (resolveItems items history).1 = items.map fun v => (v.resolve []).1 := by
  induction items generalizing history with
  | nil => rfl
  | cons v rest ih =>
    have hhead := h v (List.mem_cons_self ..) history []
    have htail := ih (fun w hw => h w (List.mem_cons_of_mem _ hw)) (v.resolve history).2
    simp only [resolveItems, RunM.bind_apply, RunM.pure_apply, List.map_cons, hhead, htail]

theorem resolveEntries_eq_map {entries : Entries Value}
    (h : ∀ key v, (key, v) ∈ entries →
      ∀ before after, (v.resolve before).1 = (v.resolve after).1)
    (history : History) : (resolveEntries entries history).1 =
      entries.map fun pair => (pair.1, (pair.2.resolve []).1) := by
  induction entries generalizing history with
  | nil => rfl
  | cons pair rest ih =>
    obtain ⟨key, v⟩ := pair
    have hhead := h key v (List.mem_cons_self ..) history []
    have htail := ih (fun k w hw => h k w (List.mem_cons_of_mem _ hw)) (v.resolve history).2
    simp only [resolveEntries, RunM.bind_apply, RunM.pure_apply, List.map_cons, hhead, htail]

theorem resolve_steady {v : Value} (h : Everywhere Steady v) (before after : History) :
    (v.resolve before).1 = (v.resolve after).1 := by
  induction h generalizing before after with
  | @intro v here _ ih =>
    cases v with
    | array items =>
      have hitems := resolveItems_eq_map fun v hv => ih v (.item hv)
      unfold resolve
      split
      · exact congrArg array ((hitems before).trans (hitems after).symm)
      · rfl
    | map entries =>
      have hentries := resolveEntries_eq_map fun key v hv => ih v (.entry hv)
      unfold resolve
      split
      · exact congrArg map ((hentries before).trans (hentries after).symm)
      · rfl
    | lazy task compute =>
      unfold resolve
      split
      · simp only [RunM.bind_apply, record_apply]
        rw [here after before]
        exact ih (compute before) (.result task compute before) _ _
      · rfl
    | _ => rfl

theorem resolve_array_of_steady {items : List Value} (h : ∀ v ∈ items, Everywhere Steady v)
    (history : History) : ((array items).resolve history).1 =
      if itemsInvariant items then array (items.map fun v => (v.resolve []).1)
      else array items := by
  rw [resolve]
  split
  · exact congrArg array (resolveItems_eq_map (fun v hv => resolve_steady (h v hv)) history)
  · rfl

theorem resolve_map_of_steady {entries : Entries Value}
    (h : ∀ key v, (key, v) ∈ entries → Everywhere Steady v) (history : History) :
    ((map entries).resolve history).1 =
      if entriesInvariant entries then
        map (entries.map fun pair => (pair.1, (pair.2.resolve []).1))
      else map entries := by
  rw [resolve]
  split
  · have hentries := resolveEntries_eq_map (fun key v hv => resolve_steady (h key v hv)) history
    exact congrArg map hentries
  · rfl

/-- The comparison without its history. Each rule but the first compares two values without a
layer on top. -/
inductive Equated : Value → Value → Prop where
  | opened {a b : Value} : (a.isWrapped || b.isWrapped) = true → a.isInvariant = true →
      b.isInvariant = true → sameDeclared a b = true →
      Equated (a.resolve []).1 (b.resolve []).1 → Equated a b
  | bool (b : Bool) : Equated (bool b) (bool b)
  | int (n : Int64) : Equated (int n) (int n)
  | double {x y : Double} : x.equal y = true → Equated (double x) (double y)
  | str (text : String) : Equated (str text) (str text)
  | bytes (data : List UInt8) : Equated (bytes data) (bytes data)
  | nil (left right : ValueType) : Equated (nil left) (nil right)
  | array {xs ys : List Value} : itemsInvariant xs = true → itemsInvariant ys = true →
      xs.length = ys.length →
      (∀ (i : Nat) (x y : Value), xs[i]? = some x → ys[i]? = some y → Equated x y) →
      Equated (array xs) (array ys)
  | map {xs ys : Entries Value} : entriesInvariant xs = true → entriesInvariant ys = true →
      Entries.SameKeys xs ys →
      (∀ key x y, Entries.get? xs key = some x → Entries.get? ys key = some y → Equated x y) →
      Equated (map xs) (map ys)

theorem equated_array_iff {xs ys : List Value} : Equated (array xs) (array ys) ↔
    (itemsInvariant xs = true ∧ itemsInvariant ys = true ∧ xs.length = ys.length) ∧
      ∀ (i : Nat) (x y : Value), xs[i]? = some x → ys[i]? = some y → Equated x y := by
  constructor
  · intro h
    cases h with
    | opened h => cases h
    | array hx hy hlength hitems => exact ⟨⟨hx, hy, hlength⟩, hitems⟩
  · rintro ⟨⟨hx, hy, hlength⟩, hitems⟩
    exact .array hx hy hlength hitems

theorem equated_map_iff {xs ys : Entries Value} : Equated (map xs) (map ys) ↔
    entriesInvariant xs = true ∧ entriesInvariant ys = true ∧ Entries.SameKeys xs ys ∧
      ∀ key x y, Entries.get? xs key = some x → Entries.get? ys key = some y → Equated x y := by
  constructor
  · intro h
    cases h with
    | opened h => cases h
    | map hx hy hkeys hvalues => exact ⟨hx, hy, hkeys, hvalues⟩
  · rintro ⟨hx, hy, hkeys, hvalues⟩
    exact .map hx hy hkeys hvalues

/-- The comparison of two maps walks through the first one only. -/
theorem equated_map_iff_walk {xs ys : Entries Value} (hx : Entries.Distinct xs)
    (hy : Entries.Distinct ys) : Equated (map xs) (map ys) ↔
      (entriesInvariant xs = true ∧ entriesInvariant ys = true ∧ xs.length = ys.length) ∧
        ∀ key x, (key, x) ∈ xs → ∃ y, Entries.get? ys key = some y ∧ Equated x y := by
  rw [equated_map_iff, hx.related_iff_walk hy, and_assoc, and_assoc]

/-- The answer of a comparison is that of the relation, whatever ran before. -/
theorem equal_iff_equated {a b : Value} (ha : Everywhere SteadyHere a)
    (hb : Everywhere SteadyHere b) (history : History) :
    (a.equal b history).1 = true ↔ Equated a b := by
  fun_induction equal a b history with
  | case1 a b history hwrapped hinvariant left right ih =>
    simp only [Bool.and_eq_true] at hinvariant
    rw [ih (ha.resolve contentBlind_steadyHere history)
      (hb.resolve contentBlind_steadyHere left.2), resolve_steady ha.steady history [],
      resolve_steady hb.steady left.2 []]
    constructor
    · exact .opened hwrapped hinvariant.1.1 hinvariant.1.2 hinvariant.2
    · intro h
      cases h with
      | opened _ _ _ _ h => exact h
      | _ => simp [isWrapped] at hwrapped
  | case2 a b history hwrapped hrefused =>
    refine iff_of_false (by simp) fun h => ?_
    cases h with
    | opened _ ha hb hdeclared => simp [ha, hb, hdeclared] at hrefused
    | _ => simp [isWrapped] at hwrapped
  | case3 history left right => exact iff_of_true rfl (.nil left right)
  | case4 history x y =>
    rw [beq_iff_eq]
    exact ⟨fun h => h ▸ .bool x, fun h => by cases h with | opened h => cases h | bool => rfl⟩
  | case5 history x y =>
    rw [beq_iff_eq]
    exact ⟨fun h => h ▸ .int x, fun h => by cases h with | opened h => cases h | int => rfl⟩
  | case6 history x y =>
    exact ⟨.double, fun h => by cases h with | opened h => cases h | double h => exact h⟩
  | case7 history x y =>
    rw [beq_iff_eq]
    exact ⟨fun h => h ▸ .str x, fun h => by cases h with | opened h => cases h | str => rfl⟩
  | case8 history x y =>
    rw [beq_iff_eq]
    exact ⟨fun h => h ▸ .bytes x, fun h => by cases h with | opened h => cases h | bytes => rfl⟩
  | case9 history xs ys hlength _ ih =>
    simp only [Bool.and_eq_true, beq_iff_eq] at hlength
    rw [equated_array_iff, and_iff_right ⟨hlength.1.1, hlength.1.2, hlength.2⟩]
    exact allPairs_iff xs ys _ (fun x hx y hy history =>
      ih x hx y hy history (ha.item hx) (hb.item hy)) history
  | case10 history xs ys hlength =>
    simp only [Bool.and_eq_true, beq_iff_eq, and_assoc] at hlength
    exact iff_of_false (by simp) fun h => hlength (equated_array_iff.1 h).1
  | case11 history xs ys hlength _ ih =>
    simp only [Bool.and_eq_true, beq_iff_eq] at hlength
    rw [equated_map_iff_walk ha.here.distinct hb.here.distinct,
      and_iff_right ⟨hlength.1.1, hlength.1.2, hlength.2⟩]
    exact allEntries_iff ys xs _ (fun x hx y hy history =>
      ih x hx y hy history (ha.entry hx.choose_spec) (hb.entry hy.choose_spec)) history
  | case12 history xs ys hlength =>
    simp only [Bool.and_eq_true, beq_iff_eq, and_assoc] at hlength
    exact iff_of_false (by simp) fun h =>
      hlength ((equated_map_iff_walk ha.here.distinct hb.here.distinct).1 h).1
  | case13 a b history hwrapped hnil hbool hint hdouble hstr hbytes harray hmap =>
    refine iff_of_false (by simp) fun h => ?_
    cases h with
    | opened hopened => exact hwrapped hopened
    | bool b => exact hbool b b rfl rfl
    | int n => exact hint n n rfl rfl
    | double => exact hdouble _ _ rfl rfl
    | str text => exact hstr text text rfl rfl
    | bytes data => exact hbytes data data rfl rfl
    | nil left right => exact hnil left right rfl rfl
    | array => exact harray _ _ rfl rfl
    | map => exact hmap _ _ rfl rfl

theorem Equated.same_bare {a b : Value} (h : Equated a b) (ha : Everywhere SteadyHere a)
    (hb : Everywhere SteadyHere b) : Same a.bare b.bare := by
  induction h with
  | opened _ _ _ _ _ ih =>
    have hsame := ih (ha.resolve contentBlind_steadyHere []) (hb.resolve contentBlind_steadyHere [])
    rwa [bare_resolve ha.steady, bare_resolve hb.steady] at hsame
  | bool b => exact .bool b
  | int n => exact .int n
  | double h => exact .double h
  | str text => exact .str text
  | bytes data => exact .bytes data
  | nil left right => exact .nil left right
  | array _ _ hlength _ ih =>
    exact same_array_iff.2 ⟨hlength, fun i x y hx hy =>
      ih i x y hx hy (ha.of_getElem? hx) (hb.of_getElem? hy)⟩
  | map _ _ hkeys _ ih =>
    exact same_map_iff.2 ⟨hkeys, fun key x y hx hy =>
      ih key x y hx hy (ha.of_get? hx) (hb.of_get? hy)⟩

/-- Resolving takes off promised tasks only. -/
theorem promised_of_resolve {v : Value} (hv : Everywhere Steady v) (history : History)
    (h : Everywhere Promised (v.resolve history).1) : Everywhere Promised v := by
  induction hv generalizing history with
  | @intro v here parts ih =>
    cases v with
    | array items =>
      rw [resolve_array_of_steady fun w hw => parts w (.item hw)] at h
      split at h
      · refine everywhere_array_iff.2 ⟨trivial, fun v hv => ?_⟩
        exact ih v (.item hv) [] (h.item (List.mem_map_of_mem hv))
      · exact h
    | map entries =>
      rw [resolve_map_of_steady fun k w hw => parts w (.entry hw)] at h
      split at h
      · refine everywhere_map_iff.2 ⟨trivial, fun key v hv => ?_⟩
        exact ih v (.entry hv) [] (h.entry (List.mem_map.2 ⟨(key, v), hv, rfl⟩))
      · exact h
    | present inner declared =>
      simp only [resolve, RunM.pure_apply] at h
      split at h
      · exact everywhere_present_iff.2 ⟨trivial, h⟩
      · exact h
    | lazy task compute =>
      unfold resolve at h
      split at h
      next hpromised =>
        refine everywhere_lazy_iff.2 ⟨hpromised, fun before => ?_⟩
        rw [here before history]
        exact ih (compute history) (.result task compute history) _ h
      next => exact h
    | _ => exact h

/-- Every element of two lists of one length has a partner. -/
theorem forall_mem_of_pairs {xs ys : List Value} {P Q : Value → Prop}
    (hlength : xs.length = ys.length)
    (h : ∀ (i : Nat) (x y : Value), xs[i]? = some x → ys[i]? = some y → P x ∧ Q y) :
    (∀ x ∈ xs, P x) ∧ ∀ y ∈ ys, Q y := by
  constructor
  · intro x hx
    obtain ⟨i, hi, rfl⟩ := List.getElem_of_mem hx
    have hi' : i < ys.length := by omega
    exact (h i _ _ (List.getElem?_eq_getElem hi) (List.getElem?_eq_getElem hi')).1
  · intro y hy
    obtain ⟨i, hi, rfl⟩ := List.getElem_of_mem hy
    have hi' : i < xs.length := by omega
    exact (h i _ _ (List.getElem?_eq_getElem hi') (List.getElem?_eq_getElem hi)).2

/-- Equated values run promised tasks only, however deep these lie. -/
theorem Equated.promised {a b : Value} (h : Equated a b) (ha : Everywhere SteadyHere a)
    (hb : Everywhere SteadyHere b) : Everywhere Promised a ∧ Everywhere Promised b := by
  induction h with
  | opened _ _ _ _ _ ih =>
    obtain ⟨hleft, hright⟩ := ih (ha.resolve contentBlind_steadyHere [])
      (hb.resolve contentBlind_steadyHere [])
    exact ⟨promised_of_resolve ha.steady [] hleft, promised_of_resolve hb.steady [] hright⟩
  | array _ _ hlength _ ih =>
    obtain ⟨hleft, hright⟩ := forall_mem_of_pairs hlength fun i x y hx hy =>
      ih i x y hx hy (ha.of_getElem? hx) (hb.of_getElem? hy)
    exact ⟨everywhere_array_iff.2 ⟨trivial, hleft⟩, everywhere_array_iff.2 ⟨trivial, hright⟩⟩
  | map _ _ hkeys _ ih =>
    obtain ⟨hleft, hright⟩ := hkeys.forall_mem ha.here.distinct hb.here.distinct
      fun key x y hx hy => ih key x y hx hy (ha.of_get? hx) (hb.of_get? hy)
    exact ⟨everywhere_map_iff.2 ⟨trivial, hleft⟩, everywhere_map_iff.2 ⟨trivial, hright⟩⟩
  | _ => exact ⟨everywhere_of_no_part trivial nofun, everywhere_of_no_part trivial nofun⟩

theorem sameDeclared_comm (a b : Value) : sameDeclared a b = sameDeclared b a := by
  rw [sameDeclared, sameDeclared, Bool.and_comm, BEq.comm]

theorem Equated.symm {a b : Value} (h : Equated a b) : Equated b a := by
  induction h with
  | @opened a b hwrapped ha hb hdeclared _ ih =>
    rw [Bool.or_comm] at hwrapped
    rw [sameDeclared_comm] at hdeclared
    exact .opened hwrapped hb ha hdeclared ih
  | double h => exact .double (Double.equal_swap _ _ ▸ h)
  | array hx hy hlength _ ih => exact .array hy hx hlength.symm fun i y x hy hx => ih i x y hx hy
  | map hx hy hkeys _ ih => exact .map hy hx hkeys.symm fun key y x hy hx => ih key x y hx hy
  | nil left right => exact .nil right left
  | bool b => exact .bool b
  | int n => exact .int n
  | str text => exact .str text
  | bytes data => exact .bytes data

/-- The two sides of a comparison can be exchanged. Declared types may be wrong and computations
need not be promised to be pure. -/
theorem equal_comm_of_steady {a b : Value} (ha : Everywhere SteadyHere a)
    (hb : Everywhere SteadyHere b) (before after : History) :
    (a.equal b before).1 = (b.equal a after).1 := by
  rw [Bool.eq_iff_iff, equal_iff_equated ha hb, equal_iff_equated hb ha]
  exact ⟨.symm, .symm⟩

section Sample

variable {P : Value → Prop}

/-- Bytes and a slot over nil. -/
def mixedEntries : Entries Value :=
  [("left", bytes [255]), ("right", present (nil .int) .string)]

/-- The same without the slot, in another order. -/
def turnedEntries : Entries Value := [("right", nil .void), ("left", bytes [255])]

/-- A map behind a promise of another type. -/
def miscastMap : Value :=
  lazy { serial := 0, label := "map", returns := .bool, invariant := true } fun _ =>
    map mixedEntries

/-- The same map in a slot. -/
def turnedMap : Value := present (map turnedEntries) .bool

theorem everywhere_miscastMap (hlazy : P miscastMap) (hmap : P (map mixedEntries))
    (hslot : P (present (nil .int) .string)) (hbytes : P (bytes [255])) (hnil : P (nil .int)) :
    Everywhere P miscastMap := by
  refine everywhere_lazy_iff.2 ⟨hlazy, fun _ => everywhere_map_iff.2 ⟨hmap, fun key v hv => ?_⟩⟩
  simp only [mixedEntries, List.mem_cons, Prod.mk.injEq, List.not_mem_nil, or_false] at hv
  obtain ⟨_, rfl⟩ | ⟨_, rfl⟩ := hv
  · exact everywhere_bytes_iff.2 hbytes
  · exact everywhere_present_iff.2 ⟨hslot, everywhere_nil_iff.2 hnil⟩

theorem everywhere_turnedMap (hslot : P turnedMap) (hmap : P (map turnedEntries))
    (hbytes : P (bytes [255])) (hnil : P (nil .void)) : Everywhere P turnedMap := by
  refine everywhere_present_iff.2 ⟨hslot, everywhere_map_iff.2 ⟨hmap, fun key v hv => ?_⟩⟩
  simp only [turnedEntries, List.mem_cons, Prod.mk.injEq, List.not_mem_nil, or_false] at hv
  obtain ⟨_, rfl⟩ | ⟨_, rfl⟩ := hv
  · exact everywhere_nil_iff.2 hnil
  · exact everywhere_bytes_iff.2 hbytes

theorem distinct_mixedEntries : Entries.Distinct mixedEntries :=
  (by decide : ["left", "right"].Nodup)

theorem distinct_turnedEntries : Entries.Distinct turnedEntries :=
  (by decide : ["right", "left"].Nodup)

theorem equated_miscastMap : Equated miscastMap turnedMap := by
  have hresolved : Entries.Distinct [("left", bytes [255]), ("right", nil .int)] :=
    distinct_mixedEntries
  refine .opened rfl rfl rfl rfl ?_
  refine (equated_map_iff_walk hresolved distinct_turnedEntries).2 ⟨⟨rfl, rfl, rfl⟩, ?_⟩
  intro key x hx
  simp only [List.mem_cons, Prod.mk.injEq, List.not_mem_nil, or_false] at hx
  obtain ⟨rfl, rfl⟩ | ⟨rfl, rfl⟩ := hx
  · exact ⟨bytes [255], rfl, .bytes [255]⟩
  · exact ⟨nil .void, rfl, .nil .int .void⟩

end Sample

theorem equal_comm_of_steady_map : Everywhere SteadyHere miscastMap ∧
    Everywhere SteadyHere turnedMap ∧ (miscastMap.equal turnedMap []).1 = true ∧
    (turnedMap.equal miscastMap []).1 = true := by
  have hmiscast : Everywhere SteadyHere miscastMap :=
    everywhere_miscastMap ⟨fun _ _ => rfl, trivial⟩ ⟨trivial, distinct_mixedEntries⟩
      ⟨trivial, trivial⟩ ⟨trivial, trivial⟩ ⟨trivial, trivial⟩
  have hturned : Everywhere SteadyHere turnedMap :=
    everywhere_turnedMap ⟨trivial, trivial⟩ ⟨trivial, distinct_turnedEntries⟩ ⟨trivial, trivial⟩
      ⟨trivial, trivial⟩
  have hequal : (miscastMap.equal turnedMap []).1 = true :=
    (equal_iff_equated hmiscast hturned []).2 equated_miscastMap
  exact ⟨hmiscast, hturned, hequal, (equal_comm_of_steady hturned hmiscast [] []).trans hequal⟩

end Value

end TemplateRender
