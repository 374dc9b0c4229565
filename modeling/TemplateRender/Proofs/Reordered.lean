import TemplateRender.Proofs.EqualOutput
import TemplateRender.Value.Text

/-!
Values that differ only in the order in which the entries of maps arrived, at any depth and behind
lazy values too. They have the same text, the same descriptions and the same truth value. Resolving
them, as a comparison does, leaves values that again differ in nothing else (`Reordered.resolve`),
if lazy values keep their promises.
-/
namespace TemplateRender.Value

/-- The second value is the first one with the entries of maps in other orders. -/
inductive Reordered : Value → Value → Prop where
  | bool (b : Bool) : Reordered (bool b) (bool b)
  | int (n : Int64) : Reordered (int n) (int n)
  | double (d : Double) : Reordered (double d) (double d)
  | str (text : String) : Reordered (str text) (str text)
  | bytes (data : List UInt8) : Reordered (bytes data) (bytes data)
  | nil (declared : ValueType) : Reordered (nil declared) (nil declared)
  | array {xs ys : List Value} : xs.length = ys.length →
      (∀ (i : Nat) (x y : Value), xs[i]? = some x → ys[i]? = some y → Reordered x y) →
      Reordered (array xs) (array ys)
  | map {xs ys : Entries Value} : (Entries.keys xs).Perm (Entries.keys ys) →
      (∀ key x y, Entries.get? xs key = some x → Entries.get? ys key = some y → Reordered x y) →
      Reordered (map xs) (map ys)
  | present {v w : Value} (declared : ValueType) : Reordered v w →
      Reordered (present v declared) (present w declared)
  | lazy (task : Task) {compute compute' : History → Value} :
      (∀ history, Reordered (compute history) (compute' history)) →
      Reordered (lazy task compute) (lazy task compute')

theorem reordered_self (v : Value) : Reordered v v := by
  induction part_acc v with
  | intro v _ ih =>
    cases v with
    | bool b => exact .bool b
    | int n => exact .int n
    | double d => exact .double d
    | str text => exact .str text
    | bytes data => exact .bytes data
    | nil declared => exact .nil declared
    | array items =>
      refine .array rfl fun i x y hx hy => ?_
      obtain rfl := Option.some.inj (hx.symm.trans hy)
      exact ih x (.item (List.mem_of_getElem? hx))
    | map entries =>
      refine .map (List.Perm.refl _) fun key x y hx hy => ?_
      obtain rfl := Option.some.inj (hx.symm.trans hy)
      exact ih x (.entry (Entries.mem_of_get? hx))
    | present inner declared => exact .present declared (ih inner (.inner inner declared))
    | lazy task compute =>
      exact .lazy task fun history => ih (compute history) (.result task compute history)

theorem sameKeys_of_perm {xs ys : Entries Value}
    (h : (Entries.keys xs).Perm (Entries.keys ys)) : Entries.SameKeys xs ys :=
  Entries.sameKeys_iff.2 fun _ => h.mem_iff

theorem length_eq_of_perm {xs ys : Entries Value}
    (h : (Entries.keys xs).Perm (Entries.keys ys)) : xs.length = ys.length := by
  simpa [Entries.keys] using h.length_eq

theorem distinct_of_perm {xs ys : Entries Value} (h : (Entries.keys xs).Perm (Entries.keys ys))
    (hx : Entries.Distinct xs) : Entries.Distinct ys := h.nodup_iff.1 hx

/-- The same bindings in another order. -/
theorem reordered_of_perm {xs ys : Entries Value} (h : xs.Perm ys) (hx : Entries.Distinct xs) :
    Reordered (map xs) (map ys) := by
  refine .map (h.map _) fun key x y hgetx hgety => ?_
  have hmem := h.mem_iff.1 (Entries.mem_of_get? hgetx)
  have hgetx' := (distinct_of_perm (h.map _) hx).get?_of_mem hmem
  obtain rfl := Option.some.inj (hgetx'.symm.trans hgety)
  exact reordered_self x

theorem forall_mem_iff_of_pairs {xs ys : List Value} {P Q : Value → Prop}
    (hlength : xs.length = ys.length)
    (h : ∀ (i : Nat) (x y : Value), xs[i]? = some x → ys[i]? = some y → (P x ↔ Q y)) :
    (∀ x ∈ xs, P x) ↔ ∀ y ∈ ys, Q y := by
  constructor
  · intro hP
    refine (forall_mem_of_pairs (P := P) hlength fun i x y hx hy => ?_).2
    have hhere : P x := hP x (List.mem_of_getElem? hx)
    exact ⟨hhere, (h i x y hx hy).1 hhere⟩
  · intro hQ
    refine (forall_mem_of_pairs (Q := Q) hlength fun i x y hx hy => ?_).1
    have hhere : Q y := hQ y (List.mem_of_getElem? hy)
    exact ⟨(h i x y hx hy).2 hhere, hhere⟩

theorem map_eq_of_pairs {xs ys : List Value} {f : Value → String} (hlength : xs.length = ys.length)
    (h : ∀ (i : Nat) (x y : Value), xs[i]? = some x → ys[i]? = some y → f x = f y) :
    xs.map f = ys.map f := by
  refine List.ext_getElem (by simpa using hlength) fun i hi hi' => ?_
  rw [List.getElem_map, List.getElem_map]
  rw [List.length_map] at hi hi'
  exact h i _ _ (List.getElem?_eq_getElem hi) (List.getElem?_eq_getElem hi')

namespace Reordered

variable {a b : Value}

theorem type_eq (h : Reordered a b) : a.type = b.type := by
  cases h <;> rfl

theorem isWrapped_eq (h : Reordered a b) : a.isWrapped = b.isWrapped := by
  cases h <;> rfl

theorem isLazy_eq (h : Reordered a b) : a.isLazy = b.isLazy := by
  cases h <;> rfl

theorem kind_eq (h : Reordered a b) : a.kind = b.kind := by
  cases h <;> rfl

theorem isInvariant_eq (h : Reordered a b) (ha : Everywhere DistinctKeys a) :
    a.isInvariant = b.isInvariant := by
  induction h with
  | array hlength _ ih =>
    rw [Bool.eq_iff_iff, isInvariant, isInvariant, itemsInvariant_iff, itemsInvariant_iff]
    refine forall_mem_iff_of_pairs hlength fun i x y hx hy => ?_
    rw [ih i x y hx hy (ha.of_getElem? hx)]
  | map hkeys _ ih =>
    rw [Bool.eq_iff_iff, isInvariant, isInvariant, entriesInvariant_iff, entriesInvariant_iff]
    simp only [Prod.forall]
    refine (sameKeys_of_perm hkeys).forall_mem_iff ha.here (distinct_of_perm hkeys ha.here) ?_
    exact fun key x y hx hy => by rw [ih key x y hx hy (ha.of_get? hx)]
  | present declared _ ih => exact ih ha.inner
  | _ => rfl

/-! What is written of a value and how it is described. -/

theorem sameText {format : FormatConfig} (h : Reordered a b) (ha : Everywhere SteadyHere a) :
    SameText format a b := by
  induction h with
  | array hlength _ ih =>
    intro before after
    refine congrArg (some ∘ format.formatters.array) (itemTexts_eq hlength ?_ before after)
    exact fun i x y hx hy => ih i x y hx hy (ha.of_getElem? hx)
  | map hkeys _ ih =>
    intro before after
    refine congrArg (some ∘ format.formatters.map) (sorted_entryTexts_eq ha.here.distinct
      (distinct_of_perm hkeys ha.here.distinct) (sameKeys_of_perm hkeys) ?_ before after)
    exact fun key x y hx hy => ih key x y hx hy (ha.of_get? hx)
  | present declared _ ih => exact ih ha.inner
  | @lazy task compute compute' hresult ih =>
    intro before after
    have hsame := ih after (ha.result after)
    have hlazy := (hresult after).isLazy_eq
    have hanswer := ha.here.steady before after
    cases hagain : (compute after).isLazy with
    | true =>
      rw [text?_lazy_of_isLazy task (hanswer ▸ hagain),
        text?_lazy_of_isLazy task (hlazy ▸ hagain)]
    | false =>
      rw [text?_lazy task (hanswer ▸ hagain), text?_lazy task (hlazy ▸ hagain), hanswer]
      exact hsame _ _
  | _ => exact fun _ _ => rfl

theorem forced (h : Reordered a b) (ha : Everywhere Steady a) (before after : History) :
    Reordered (a.forced before).1 (b.forced after).1 := by
  induction h generalizing before after with
  | array hlength hitems _ => exact .array hlength hitems
  | map hkeys hvalues _ => exact .map hkeys hvalues
  | present declared _ ih => exact ih ha.inner before after
  | @lazy task compute compute' _ ih =>
    have hforced := ih after (ha.result after) (.ran task :: before) (.ran task :: after)
    rw [← ha.here before after] at hforced
    exact hforced
  | bool b => exact .bool b
  | int n => exact .int n
  | double d => exact .double d
  | str text => exact .str text
  | bytes data => exact .bytes data
  | nil declared => exact .nil declared

theorem isTruthy (h : Reordered a b) (ha : Everywhere Steady a) (before after : History) :
    (a.isTruthy before).1 = (b.isTruthy after).1 := by
  have hforced := h.forced ha before after
  rw [Value.isTruthy, Value.isTruthy, RunM.bind_apply, RunM.bind_apply]
  revert hforced
  generalize (a.forced before).1 = settled
  generalize (b.forced after).1 = settled'
  intro hforced
  cases hforced <;> rfl

theorem detailed_eq (h : Reordered a b) (ha : Everywhere DistinctKeys a) :
    a.detailed = b.detailed := by
  induction h with
  | array hlength _ ih =>
    rw [detailed, detailed, detailedItems_eq_map, detailedItems_eq_map,
      map_eq_of_pairs hlength fun i x y hx hy => ih i x y hx hy (ha.of_getElem? hx)]
  | map hkeys _ ih =>
    rw [detailed, detailed, detailedEntries_eq_map, detailedEntries_eq_map,
      Entries.sorted_map_eq ha.here (distinct_of_perm hkeys ha.here) (sameKeys_of_perm hkeys)
        fun key x y hx hy => ih key x y hx hy (ha.of_get? hx)]
  | present declared _ ih => rw [detailed, detailed, ih ha.inner]
  | _ => rfl

theorem brief_eq (h : Reordered a b) (ha : Everywhere DistinctKeys a) : a.brief = b.brief := by
  induction h with
  | array hlength _ ih =>
    rw [brief, brief, briefItems_eq_map, briefItems_eq_map,
      map_eq_of_pairs hlength fun i x y hx hy => ih i x y hx hy (ha.of_getElem? hx)]
  | map hkeys _ ih =>
    rw [brief, brief, briefEntries_eq_map, briefEntries_eq_map,
      Entries.sorted_map_eq ha.here (distinct_of_perm hkeys ha.here) (sameKeys_of_perm hkeys)
        fun key x y hx hy => ih key x y hx hy (ha.of_get? hx)]
  | present declared _ ih => exact ih ha.inner
  | _ => rfl

end Reordered

/-! Resolving. -/

/-- A lazy value that is promised to be pure answers the same on every run. -/
def KeepsPromise : Value → Prop
  | lazy task compute => task.invariant = true → ∀ before after, compute before = compute after
  | _ => True

/-- At one value: a promise is kept, and the keys of a map are distinct. -/
structure ReliableHere (v : Value) : Prop where
  kept : KeepsPromise v
  distinct : DistinctKeys v

theorem SteadyHere.reliableHere {v : Value} (h : SteadyHere v) : ReliableHere v where
  kept := by
    cases v with
    | lazy => exact fun _ => h.steady
    | _ => trivial
  distinct := h.distinct

theorem contentBlind_reliableHere : ContentBlind ReliableHere where
  array _ := ⟨trivial, trivial⟩
  map hkeys h := by
    refine ⟨trivial, ?_⟩
    have hdistinct := h.distinct
    simp only [DistinctKeys, Entries.Distinct, hkeys] at hdistinct
    exact hdistinct

theorem getElem?_resolveItems (items : List Value) (i : Nat) (history : History) :
    ∃ before, (resolveItems items history).1[i]? =
      items[i]?.map fun v => (v.resolve before).1 := by
  induction items generalizing i history with
  | nil => exact ⟨history, rfl⟩
  | cons v rest ih =>
    cases i with
    | zero => exact ⟨history, rfl⟩
    | succ i => exact ih i (v.resolve history).2

theorem length_resolveItems (items : List Value) (history : History) :
    (resolveItems items history).1.length = items.length := by
  induction items generalizing history with
  | nil => rfl
  | cons v rest ih => exact congrArg (· + 1) (ih _)

theorem get?_resolveEntries (entries : Entries Value) (key : String) (history : History) :
    ∃ before, Entries.get? (resolveEntries entries history).1 key =
      (Entries.get? entries key).map fun v => (v.resolve before).1 := by
  induction entries generalizing history with
  | nil => exact ⟨history, rfl⟩
  | cons pair rest ih =>
    obtain ⟨k, v⟩ := pair
    simp only [resolveEntries, RunM.bind_apply, RunM.pure_apply, Entries.get?_cons]
    split
    · exact ⟨history, rfl⟩
    · exact ih (v.resolve history).2

namespace Reordered

variable {a b c d : Value}

theorem invariant_eq (h : Reordered a b) (ha : Everywhere ReliableHere a) :
    a.isInvariant = b.isInvariant := h.isInvariant_eq (ha.imp fun _ h => h.distinct)

theorem exists_array {xs : List Value} (h : Reordered (.array xs) b)
    (hxs : Everywhere ReliableHere (.array xs)) :
    ∃ ys, b = .array ys ∧ xs.length = ys.length ∧ itemsInvariant xs = itemsInvariant ys ∧
      ∀ (i : Nat) (x y : Value), xs[i]? = some x → ys[i]? = some y → Reordered x y := by
  have hinvariant := h.invariant_eq hxs
  cases h with
  | @array _ ys hlength hitems =>
    rw [isInvariant, isInvariant] at hinvariant
    exact ⟨ys, rfl, hlength, hinvariant, hitems⟩

theorem exists_map {xs : Entries Value} (h : Reordered (.map xs) b)
    (hxs : Everywhere ReliableHere (.map xs)) :
    ∃ ys, b = .map ys ∧ (Entries.keys xs).Perm (Entries.keys ys) ∧
      entriesInvariant xs = entriesInvariant ys ∧
      ∀ key x y, Entries.get? xs key = some x → Entries.get? ys key = some y →
        Reordered x y := by
  have hinvariant := h.invariant_eq hxs
  cases h with
  | @map _ ys hkeys hvalues =>
    rw [isInvariant, isInvariant] at hinvariant
    exact ⟨ys, rfl, hkeys, hinvariant, hvalues⟩

/-- Values that are not invariant stay as they are, on both sides. -/
theorem resolve_of_invariant {before after : History} (h : Reordered a b)
    (ha : Everywhere ReliableHere a) (hresolved : a.isInvariant = true → b.isInvariant = true →
      Reordered (a.resolve before).1 (b.resolve after).1) :
    Reordered (a.resolve before).1 (b.resolve after).1 := by
  have hinvariant := h.invariant_eq ha
  cases hb : b.isInvariant with
  | true => exact hresolved (hinvariant.trans hb) hb
  | false =>
    rwa [resolve_of_not_invariant (hinvariant.trans hb), resolve_of_not_invariant hb]

theorem resolve (h : Reordered a b) (ha : Everywhere ReliableHere a) (before after : History) :
    Reordered (a.resolve before).1 (b.resolve after).1 := by
  induction h generalizing before after with
  | @array xs ys hlength hitems ih =>
    refine (Reordered.array hlength hitems).resolve_of_invariant ha fun hxs hys => ?_
    rw [resolve_array hxs, resolve_array hys]
    have hlength' := (length_resolveItems xs before).trans
      (hlength.trans (length_resolveItems ys after).symm)
    refine .array hlength' fun i x' y' hx' hy' => ?_
    obtain ⟨before', hleft⟩ := getElem?_resolveItems xs i before
    obtain ⟨after', hright⟩ := getElem?_resolveItems ys i after
    rw [hleft, Option.map_eq_some_iff] at hx'
    rw [hright, Option.map_eq_some_iff] at hy'
    obtain ⟨x, hx, rfl⟩ := hx'
    obtain ⟨y, hy, rfl⟩ := hy'
    exact ih i x y hx hy (ha.of_getElem? hx) before' after'
  | @map xs ys hkeys hvalues ih =>
    refine (Reordered.map hkeys hvalues).resolve_of_invariant ha fun hxs hys => ?_
    rw [resolve_map hxs, resolve_map hys]
    have hkeys' := hkeys
    rw [← keys_resolveEntries xs before, ← keys_resolveEntries ys after] at hkeys'
    refine .map hkeys' fun key x' y' hx' hy' => ?_
    obtain ⟨before', hleft⟩ := get?_resolveEntries xs key before
    obtain ⟨after', hright⟩ := get?_resolveEntries ys key after
    rw [hleft, Option.map_eq_some_iff] at hx'
    rw [hright, Option.map_eq_some_iff] at hy'
    obtain ⟨x, hx, rfl⟩ := hx'
    obtain ⟨y, hy, rfl⟩ := hy'
    exact ih key x y hx hy (ha.of_get? hx) before' after'
  | present declared hinner _ =>
    refine (Reordered.present declared hinner).resolve_of_invariant ha fun hx hy => ?_
    rw [resolve_present hx, resolve_present hy]
    exact hinner
  | @lazy task compute compute' hresult ih =>
    refine (Reordered.lazy task hresult).resolve_of_invariant ha fun hx hy => ?_
    rw [resolve_lazy hx, resolve_lazy hy, ha.here.kept hx before after]
    exact ih after (ha.result after) _ _
  | bool b => exact .bool b
  | int n => exact .int n
  | double d => exact .double d
  | str text => exact .str text
  | bytes data => exact .bytes data
  | nil declared => exact .nil declared

theorem comparable_eq (hab : Reordered a b) (hcd : Reordered c d) (ha : Everywhere ReliableHere a)
    (hc : Everywhere ReliableHere c) :
    (a.isInvariant && c.isInvariant && sameDeclared a c) =
      (b.isInvariant && d.isInvariant && sameDeclared b d) := by
  rw [sameDeclared, sameDeclared, hab.invariant_eq ha, hcd.invariant_eq hc, hab.isWrapped_eq,
    hcd.isWrapped_eq, hab.type_eq, hcd.type_eq]

end Reordered

end TemplateRender.Value
