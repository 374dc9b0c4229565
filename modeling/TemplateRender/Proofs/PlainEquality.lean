import TemplateRender.Proofs.Bare
import TemplateRender.Proofs.Entries
import TemplateRender.Value.Equality

/-!
What equality means where layers are plain: lazy values are promised to be pure and keep their
answers, declared types are truthful, and no layer hides a nil. Then two values are equal exactly
when they are structurally the same once every layer is taken off.
-/
namespace TemplateRender.Value

/-- Structural equality of values without layers. The recursion is on the values alone and takes
no note of declared types. -/
inductive Same : Value → Value → Prop where
  | bool (b : Bool) : Same (bool b) (bool b)
  | int (n : Int64) : Same (int n) (int n)
  | double {x y : Double} : x.equal y = true → Same (double x) (double y)
  | str (text : String) : Same (str text) (str text)
  | bytes (data : List UInt8) : Same (bytes data) (bytes data)
  | nil (left right : ValueType) : Same (nil left) (nil right)
  | array {xs ys : List Value} : xs.length = ys.length →
      (∀ (i : Nat) (x y : Value), xs[i]? = some x → ys[i]? = some y → Same x y) →
      Same (array xs) (array ys)
  | map {xs ys : Entries Value} : Entries.SameKeys xs ys →
      (∀ key x y, Entries.get? xs key = some x → Entries.get? ys key = some y → Same x y) →
      Same (map xs) (map ys)

theorem Same.type_eq {a b : Value} (h : Same a b) (hnil : a.isNil = false) : a.type = b.type := by
  cases h with
  | nil => simp [isNil] at hnil
  | _ => rfl

/-- The type of what a value without layers holds. All nils are of one kind. -/
def kind : Value → ValueType
  | nil _ => .void
  | v => v.type

theorem Same.kind_eq {a b : Value} (h : Same a b) : a.kind = b.kind := by
  cases h with
  | _ => rfl

theorem kind_bare {v : Value} (h : v.isWrapped = false) : v.bare.kind = v.kind := by
  cases v with
  | present => simp [isWrapped] at h
  | lazy => simp [isWrapped] at h
  | _ => rfl

/-- Settled values of different kinds are unequal. -/
theorem equal_of_kind_ne {a b : Value} (hwrapped : (a.isWrapped || b.isWrapped) = false)
    (hkind : a.kind ≠ b.kind) (history : History) : a.equal b history = (false, history) := by
  rw [equal.eq_def, hwrapped, if_neg Bool.false_ne_true]
  cases a <;> cases b <;> first | rfl | exact absurd rfl hkind

theorem allPairs_iff {Q : Value → Value → Prop} (xs ys : List Value)
    (same : (x : Value) → x ∈ xs → (y : Value) → y ∈ ys → RunM Bool)
    (hsame : ∀ x hx y hy history, (same x hx y hy history).1 = true ↔ Q x y) (history : History) :
    (allPairs xs ys same history).1 = true ↔
      ∀ (i : Nat) (x y : Value), xs[i]? = some x → ys[i]? = some y → Q x y := by
  induction xs generalizing ys history with
  | nil => simp [allPairs]
  | cons x xs ih =>
    cases ys with
    | nil => simp [allPairs]
    | cons y ys =>
      have hhead := hsame x (List.mem_cons_self ..) y (List.mem_cons_self ..) history
      have htail := ih ys _ (fun a ha b hb => hsame a (List.mem_cons_of_mem _ ha) b
        (List.mem_cons_of_mem _ hb))
      simp only [allPairs, RunM.bind_apply]
      split
      next htrue =>
        rw [htail]
        constructor
        · rintro h (_ | i) a b ha hb
          · simp only [List.getElem?_cons_zero, Option.some.injEq] at ha hb
            exact ha ▸ hb ▸ hhead.1 htrue
          · exact h i a b ha hb
        · exact fun h i => h (i + 1)
      next hfalse =>
        refine iff_of_false (by simp) fun h => hfalse (hhead.2 (h 0 x y rfl rfl))

theorem allEntries_iff {Q : Value → Value → Prop} (ys xs : Entries Value)
    (same : (x : Value) → (∃ key, (key, x) ∈ xs) → (y : Value) → (∃ key, (key, y) ∈ ys) → RunM Bool)
    (hsame : ∀ x hx y hy history, (same x hx y hy history).1 = true ↔ Q x y) (history : History) :
    (allEntries ys xs same history).1 = true ↔
      ∀ key x, (key, x) ∈ xs → ∃ y, Entries.get? ys key = some y ∧ Q x y := by
  induction xs generalizing history with
  | nil => simp [allEntries]
  | cons pair xs ih =>
    obtain ⟨key, x⟩ := pair
    cases hget : Entries.get? ys key with
    | none =>
      rw [allEntries_cons_none hget]
      refine iff_of_false (by simp) fun h => ?_
      obtain ⟨y, hy, _⟩ := h key x (List.mem_cons_self ..)
      simp [hget] at hy
    | some y =>
      have hhead := hsame x ⟨key, List.mem_cons_self ..⟩ y ⟨key, Entries.mem_of_get? hget⟩ history
      rw [allEntries_cons_some hget, RunM.bind_apply]
      split
      next htrue =>
        rw [ih _ fun a ha b hb => hsame a (ha.elim fun k hk => ⟨k, List.mem_cons_of_mem _ hk⟩) b hb]
        constructor
        · intro h k a ha
          rcases List.mem_cons.1 ha with heq | hmem
          · obtain ⟨rfl, rfl⟩ := Prod.mk.inj heq
            exact ⟨y, hget, hhead.1 htrue⟩
          · exact h k a hmem
        · exact fun h k a ha => h k a (List.mem_cons_of_mem _ ha)
      next hfalse =>
        refine iff_of_false (by simp) fun h => ?_
        obtain ⟨z, hz, hQ⟩ := h key x (List.mem_cons_self ..)
        obtain rfl : y = z := Option.some.inj (hget.symm.trans hz)
        exact hfalse (hhead.2 hQ)

/-- At one value: a lazy value is promised to be pure and keeps its answer, a layer declares the
type of what it holds and does not come down to nil, and the keys of a map are distinct. -/
structure PlainHere (v : Value) : Prop where
  steady : Steady v
  promised : Promised v
  truthful : Truthful v
  settled : v.isWrapped = true → v.bare.isNil = false
  distinct : DistinctKeys v

/-- The value and everything behind it is plain. -/
def PlainlyWrapped : Value → Prop := Everywhere PlainHere

theorem plainHere_of_not_wrapped {v : Value} (hwrapped : v.isWrapped = false)
    (hdistinct : DistinctKeys v) : PlainHere v := by
  cases v with
  | present => simp [isWrapped] at hwrapped
  | lazy => simp [isWrapped] at hwrapped
  | _ => exact ⟨trivial, trivial, trivial, fun h => absurd h Bool.false_ne_true, hdistinct⟩

theorem contentBlind_plainHere : ContentBlind PlainHere where
  array _ := plainHere_of_not_wrapped rfl trivial
  map hkeys h := by
    have hdistinct := h.distinct
    simp only [DistinctKeys, Entries.Distinct, hkeys] at hdistinct
    exact plainHere_of_not_wrapped rfl hdistinct

namespace PlainlyWrapped

variable {a b : Value}

theorem isInvariant (h : PlainlyWrapped a) : a.isInvariant = true :=
  isInvariant_of_promised (h.imp fun _ h => h.promised)

theorem bare_resolve (h : PlainlyWrapped a) (history : History) :
    (a.resolve history).1.bare = a.bare :=
  Value.bare_resolve (h.imp fun _ h => h.steady) history

theorem type_bare (h : PlainlyWrapped a) : a.bare.type = a.type :=
  Value.type_bare (h.imp fun _ h => h.truthful)

theorem resolve (h : PlainlyWrapped a) (history : History) :
    PlainlyWrapped (a.resolve history).1 := Everywhere.resolve contentBlind_plainHere h history

/-- Structurally equal values that are both wrapped agree on their declared type. -/
theorem sameDeclared_of_same (ha : PlainlyWrapped a) (hb : PlainlyWrapped b)
    (h : Same a.bare b.bare) : sameDeclared a b = true := by
  cases hwrapped : a.isWrapped with
  | false => simp [sameDeclared, hwrapped]
  | true =>
    have htype := h.type_eq (ha.here.settled hwrapped)
    rw [ha.type_bare, hb.type_bare] at htype
    simp [sameDeclared, htype]

end PlainlyWrapped

theorem same_array_iff {xs ys : List Value} :
    Same (array xs).bare (array ys).bare ↔ xs.length = ys.length ∧
      ∀ (i : Nat) (x y : Value), xs[i]? = some x → ys[i]? = some y → Same x.bare y.bare := by
  constructor
  · intro h
    cases h with
    | array hlength hitems =>
      refine ⟨by simpa using hlength, fun i x y hx hy => hitems i _ _ ?_ ?_⟩
      · simp [hx]
      · simp [hy]
  · rintro ⟨hlength, hitems⟩
    refine .array (by simpa using hlength) fun i x y hx hy => ?_
    simp only [getElem?_bareItems, Option.map_eq_some_iff] at hx hy
    obtain ⟨v, hv, rfl⟩ := hx
    obtain ⟨w, hw, rfl⟩ := hy
    exact hitems i v w hv hw

theorem same_map_iff {xs ys : Entries Value} :
    Same (map xs).bare (map ys).bare ↔ Entries.SameKeys xs ys ∧
      ∀ key x y, Entries.get? xs key = some x → Entries.get? ys key = some y →
        Same x.bare y.bare := by
  constructor
  · intro h
    cases h with
    | map hkeys hvalues =>
      refine ⟨by simpa [Entries.SameKeys] using hkeys, fun key x y hx hy => hvalues key _ _ ?_ ?_⟩
      · simp [hx]
      · simp [hy]
  · rintro ⟨hkeys, hvalues⟩
    refine .map (by simpa [Entries.SameKeys] using hkeys) fun key x y hx hy => ?_
    simp only [get?_bareEntries, Option.map_eq_some_iff] at hx hy
    obtain ⟨v, hv, rfl⟩ := hx
    obtain ⟨w, hw, rfl⟩ := hy
    exact hvalues key v w hv hw

/-- The one-sided walk through a map decides both that the keys agree and that the values do. -/
theorem same_map_iff_walk {xs ys : Entries Value} (hx : Entries.Distinct xs)
    (hy : Entries.Distinct ys) :
    Same (map xs).bare (map ys).bare ↔ xs.length = ys.length ∧
      ∀ key x, (key, x) ∈ xs → ∃ y, Entries.get? ys key = some y ∧ Same x.bare y.bare := by
  rw [same_map_iff, hx.related_iff_walk hy]

/-- Plainly wrapped values are equal exactly when they are structurally the same without their
layers. -/
theorem equal_iff_same_bare {a b : Value} (ha : PlainlyWrapped a) (hb : PlainlyWrapped b)
    (history : History) : (a.equal b history).1 = true ↔ Same a.bare b.bare := by
  fun_induction equal a b history with
  | case1 a b history _ _ left right ih =>
    rw [ih (ha.resolve history) (hb.resolve left.2), ha.bare_resolve, hb.bare_resolve]
  | case2 a b history _ hrefused =>
    refine iff_of_false (by simp) fun hsame => hrefused ?_
    simp [ha.isInvariant, hb.isInvariant, ha.sameDeclared_of_same hb hsame]
  | case3 => exact iff_of_true rfl (.nil _ _)
  | case4 history x y =>
    simp only [beq_iff_eq]
    exact ⟨fun h => h ▸ .bool x, fun h => by cases h; rfl⟩
  | case5 history x y =>
    simp only [beq_iff_eq]
    exact ⟨fun h => h ▸ .int x, fun h => by cases h; rfl⟩
  | case6 history x y => exact ⟨.double, fun h => by cases h; assumption⟩
  | case7 history x y =>
    simp only [beq_iff_eq]
    exact ⟨fun h => h ▸ .str x, fun h => by cases h; rfl⟩
  | case8 history x y =>
    simp only [beq_iff_eq]
    exact ⟨fun h => h ▸ .bytes x, fun h => by cases h; rfl⟩
  | case9 history xs ys hlength _ ih =>
    simp only [Bool.and_eq_true, beq_iff_eq] at hlength
    rw [same_array_iff, and_iff_right hlength.2]
    exact allPairs_iff xs ys _ (fun x hx y hy history =>
      ih x hx y hy history (ha.item hx) (hb.item hy)) history
  | case10 history xs ys hlength =>
    have hleft := ha.isInvariant
    have hright := hb.isInvariant
    simp only [isInvariant] at hleft hright
    simp only [hleft, hright, Bool.and_self, Bool.true_and, beq_iff_eq] at hlength
    exact iff_of_false (by simp) fun hsame => hlength (same_array_iff.1 hsame).1
  | case11 history xs ys hlength _ ih =>
    simp only [Bool.and_eq_true, beq_iff_eq] at hlength
    rw [same_map_iff_walk ha.here.distinct hb.here.distinct, and_iff_right hlength.2]
    exact allEntries_iff ys xs _ (fun x hx y hy history =>
      ih x hx y hy history (ha.entry hx.choose_spec) (hb.entry hy.choose_spec)) history
  | case12 history xs ys hlength =>
    have hleft := ha.isInvariant
    have hright := hb.isInvariant
    simp only [isInvariant] at hleft hright
    simp only [hleft, hright, Bool.and_self, Bool.true_and, beq_iff_eq] at hlength
    exact iff_of_false (by simp) fun hsame =>
      hlength ((same_map_iff_walk ha.here.distinct hb.here.distinct).1 hsame).1
  | case13 a b history hwrapped hnil hbool hint hdouble hstr hbytes harray hmap =>
    refine iff_of_false (by simp) fun hsame => ?_
    simp only [Bool.or_eq_true, not_or, Bool.not_eq_true] at hwrapped
    have hkind : a.kind = b.kind :=
      (kind_bare hwrapped.1).symm.trans (hsame.kind_eq.trans (kind_bare hwrapped.2))
    cases a <;> cases b
    case nil.nil left right => exact hnil left right rfl rfl
    case bool.bool x y => exact hbool x y rfl rfl
    case int.int x y => exact hint x y rfl rfl
    case double.double x y => exact hdouble x y rfl rfl
    case str.str x y => exact hstr x y rfl rfl
    case bytes.bytes x y => exact hbytes x y rfl rfl
    case array.array xs ys => exact harray xs ys rfl rfl
    case map.map xs ys => exact hmap xs ys rfl rfl
    -- Different kinds are left, and layers, of which there are none.
    all_goals simp [isWrapped, kind, type] at hwrapped hkind

/-- A list behind a promise, with a slot, a nil and a map in it. -/
def promisedList : Value :=
  lazy { serial := 0, label := "list", returns := .array, invariant := true } fun _ =>
    array [present (int 1) .int, nil .int, map [("key", str "text")]]

/-- The same list in a slot, written out. -/
def writtenList : Value := present (array [int 1, nil .void, map [("key", str "text")]]) .array

theorem equal_iff_same_bare_list : PlainlyWrapped promisedList ∧ PlainlyWrapped writtenList ∧
    (promisedList.equal writtenList []).1 = true := by
  have leaf : ∀ v : Value, v.isWrapped = false → DistinctKeys v → (∀ p, ¬Part p v) →
      PlainlyWrapped v :=
    fun v hwrapped hdistinct hpart =>
      everywhere_of_no_part (plainHere_of_not_wrapped hwrapped hdistinct) hpart
  have hone : PlainlyWrapped (int 1) := leaf _ rfl trivial nofun
  have hmap : PlainlyWrapped (map [("key", str "text")]) := by
    refine everywhere_map_iff.2 ⟨plainHere_of_not_wrapped rfl (List.pairwise_singleton _ _), ?_⟩
    intro key v hv
    obtain ⟨rfl, rfl⟩ := Prod.mk.inj (List.mem_singleton.1 hv)
    exact leaf _ rfl trivial nofun
  have hpromised : PlainlyWrapped promisedList := by
    refine everywhere_lazy_iff.2 ⟨⟨fun _ _ => rfl, rfl, fun _ => rfl, fun _ => rfl, trivial⟩, ?_⟩
    refine fun _ => everywhere_array_iff.2 ⟨plainHere_of_not_wrapped rfl trivial, ?_⟩
    simp only [List.forall_mem_cons]
    refine ⟨?_, leaf _ rfl trivial nofun, hmap, List.forall_mem_nil _⟩
    exact everywhere_present_iff.2 ⟨⟨trivial, trivial, rfl, fun _ => rfl, trivial⟩, hone⟩
  have hwritten : PlainlyWrapped writtenList := by
    refine everywhere_present_iff.2 ⟨⟨trivial, trivial, rfl, fun _ => rfl, trivial⟩, ?_⟩
    refine everywhere_array_iff.2 ⟨plainHere_of_not_wrapped rfl trivial, ?_⟩
    simp only [List.forall_mem_cons]
    exact ⟨hone, leaf _ rfl trivial nofun, hmap, List.forall_mem_nil _⟩
  refine ⟨hpromised, hwritten, (equal_iff_same_bare hpromised hwritten []).2 ?_⟩
  refine .array rfl fun i x y hx hy => ?_
  match i with
  | 0 =>
    cases hx
    cases hy
    exact .int 1
  | 1 =>
    cases hx
    cases hy
    exact .nil .int .void
  | 2 =>
    cases hx
    cases hy
    refine .map (fun _ => Iff.rfl) fun key x y hx hy => ?_
    obtain rfl : x = y := Option.some.inj (hx.symm.trans hy)
    obtain ⟨rfl, rfl⟩ := Prod.mk.inj (List.mem_singleton.1 (Entries.mem_of_get? hx))
    exact .str "text"
  | i + 3 => cases hx

end TemplateRender.Value
