import TemplateRender.Proofs.Reordered

/-!
What is seen of the order of the entries of maps: nothing in a text, a description or a condition,
nor in a comparison with a third value that keeps its promises (`order_unobserved`). What a map
hands to its formatter is a list by strictly increasing key. A third value that breaks a promise
can tell the order, since the first map of a comparison decides what runs first (`order_observed`).
-/
namespace TemplateRender.Value

theorem allPairs_congr {xs ys xs' ys' : List Value} (hxs : xs.length = xs'.length)
    (hys : ys.length = ys'.length)
    (h : ∀ (i j : Nat) (x x' y y' : Value), xs[i]? = some x → xs'[i]? = some x' →
      ys[j]? = some y → ys'[j]? = some y' →
        ∀ before after, (x.equal y before).1 = (x'.equal y' after).1) (before after : History) :
    (allPairs xs ys (fun x _ y _ => equal x y) before).1 =
      (allPairs xs' ys' (fun x _ y _ => equal x y) after).1 := by
  induction xs generalizing ys xs' ys' before after with
  | nil =>
    obtain rfl : xs' = [] := List.length_eq_zero_iff.1 hxs.symm
    rfl
  | cons x xs ih =>
    obtain ⟨x', xs', rfl⟩ := List.exists_cons_of_length_eq_add_one hxs.symm
    cases ys with
    | nil =>
      obtain rfl : ys' = [] := List.length_eq_zero_iff.1 hys.symm
      rfl
    | cons y ys =>
      obtain ⟨y', ys', rfl⟩ := List.exists_cons_of_length_eq_add_one hys.symm
      have hhead := h 0 0 x x' y y' rfl rfl rfl rfl before after
      simp only [allPairs, RunM.bind_apply, hhead]
      split
      · exact ih (Nat.succ.inj hxs) (Nat.succ.inj hys) (fun i j => h (i + 1) (j + 1)) _ _
      · rfl

/-- Values under the same keys of two pairs of maps compare alike, whatever ran before. -/
def ComparedAlike (xs ys xs' ys' : Entries Value) : Prop :=
  ∀ k l x x' y y', Entries.get? xs k = some x → Entries.get? xs' k = some x' →
    Entries.get? ys l = some y → Entries.get? ys' l = some y' →
      ∀ before after, (x.equal y before).1 = (x'.equal y' after).1

namespace ComparedAlike

variable {xs ys xs' ys' : Entries Value}

theorem symm (h : ComparedAlike xs ys xs' ys') : ComparedAlike xs' ys' xs ys :=
  fun k l x' x y' y hx' hx hy' hy before after =>
    (h k l x x' y y' hx hx' hy hy' after before).symm

theorem equal_steady (h : ComparedAlike xs ys xs' ys') (hx : Entries.Distinct xs)
    (hy : Entries.Distinct ys) (hxs : Entries.SameKeys xs xs') (hys : Entries.SameKeys ys ys')
    (x : Value) (hxmem : ∃ key, (key, x) ∈ xs) (y : Value) (hymem : ∃ key, (key, y) ∈ ys)
    (history : History) : (x.equal y history).1 = true ↔ (x.equal y []).1 = true := by
  obtain ⟨k, hxmem⟩ := hxmem
  obtain ⟨l, hymem⟩ := hymem
  have hgetx := hx.get?_of_mem hxmem
  have hgety := hy.get?_of_mem hymem
  obtain ⟨x', hgetx'⟩ := hxs.exists_get? hgetx
  obtain ⟨y', hgety'⟩ := hys.exists_get? hgety
  have hsame := h k l x x' y y' hgetx hgetx' hgety hgety'
  rw [hsame history [], hsame [] []]

/-- Every entry of the first map meets its partner in either order, only sooner or later. -/
theorem allEntries_imp (h : ComparedAlike xs ys xs' ys') (hx : Entries.Distinct xs)
    (hy : Entries.Distinct ys) (hx' : Entries.Distinct xs') (hy' : Entries.Distinct ys')
    (hxs : Entries.SameKeys xs xs') (hys : Entries.SameKeys ys ys') {before after : History}
    (hall : (allEntries ys xs (fun x _ y _ => equal x y) before).1 = true) :
    (allEntries ys' xs' (fun x _ y _ => equal x y) after).1 = true := by
  rw [allEntries_iff ys xs _ (h.equal_steady hx hy hxs hys)] at hall
  rw [allEntries_iff ys' xs' _ (h.symm.equal_steady hx' hy' hxs.symm hys.symm)]
  intro key x' hxmem
  have hgetx' := hx'.get?_of_mem hxmem
  obtain ⟨x, hgetx⟩ := hxs.symm.exists_get? hgetx'
  obtain ⟨y, hgety, hequal⟩ := hall key x (Entries.mem_of_get? hgetx)
  obtain ⟨y', hgety'⟩ := hys.exists_get? hgety
  refine ⟨y', hgety', ?_⟩
  rw [← h key key x x' y y' hgetx hgetx' hgety hgety' [] []]
  exact hequal

theorem allEntries_eq (h : ComparedAlike xs ys xs' ys') (hx : Entries.Distinct xs)
    (hy : Entries.Distinct ys) (hxs : (Entries.keys xs).Perm (Entries.keys xs'))
    (hys : (Entries.keys ys).Perm (Entries.keys ys')) (before after : History) :
    (allEntries ys xs (fun x _ y _ => equal x y) before).1 =
      (allEntries ys' xs' (fun x _ y _ => equal x y) after).1 := by
  have hx' : Entries.Distinct xs' := distinct_of_perm hxs hx
  have hy' : Entries.Distinct ys' := distinct_of_perm hys hy
  have hxs := sameKeys_of_perm hxs
  have hys := sameKeys_of_perm hys
  rw [Bool.eq_iff_iff]
  exact ⟨h.allEntries_imp hx hy hx' hy' hxs hys,
    h.symm.allEntries_imp hx' hy' hx hy hxs.symm hys.symm⟩

end ComparedAlike

/-- Two reliable values compare alike after the entries of their maps were put in other orders. -/
theorem equal_eq_of_reordered {a c : Value} (ha : Everywhere ReliableHere a)
    (hc : Everywhere ReliableHere c) (before : History) : ∀ {b d : Value} (after : History),
      Reordered a b → Reordered c d → (a.equal c before).1 = (b.equal d after).1 := by
  fun_induction equal a c before with
  | case1 a c before hwrapped hcomparable left right ih =>
    intro b d after hab hcd
    rw [hab.isWrapped_eq, hcd.isWrapped_eq] at hwrapped
    rw [hab.comparable_eq hcd ha hc] at hcomparable
    rw [equal_of_wrapped hwrapped, if_pos hcomparable]
    exact ih (ha.resolve contentBlind_reliableHere before)
      (hc.resolve contentBlind_reliableHere left.2) _ (hab.resolve ha before after)
      (hcd.resolve hc left.2 _)
  | case2 a c before hwrapped hrefused =>
    intro b d after hab hcd
    rw [hab.isWrapped_eq, hcd.isWrapped_eq] at hwrapped
    rw [hab.comparable_eq hcd ha hc] at hrefused
    rw [equal_of_wrapped hwrapped, if_neg hrefused]
  | case9 before xs ys hcomparable _ ih =>
    intro b d after hab hcd
    obtain ⟨xs', rfl, hxs, hinvariant, hitems⟩ := hab.exists_array ha
    obtain ⟨ys', rfl, hys, hinvariant', hitems'⟩ := hcd.exists_array hc
    rw [hinvariant, hinvariant', hxs, hys] at hcomparable
    rw [equal_array, if_pos hcomparable]
    refine allPairs_congr hxs hys (fun i j x x' y y' hx hx' hy hy' before after => ?_) _ _
    have hxmem := List.mem_of_getElem? hx
    have hymem := List.mem_of_getElem? hy
    exact ih x hxmem y hymem before (ha.item hxmem) (hc.item hymem) after
      (hitems i x x' hx hx') (hitems' j y y' hy hy')
  | case10 before xs ys hrefused =>
    intro b d after hab hcd
    obtain ⟨xs', rfl, hxs, hinvariant, hitems⟩ := hab.exists_array ha
    obtain ⟨ys', rfl, hys, hinvariant', hitems'⟩ := hcd.exists_array hc
    rw [hinvariant, hinvariant', hxs, hys] at hrefused
    rw [equal_array, if_neg hrefused]
  | case11 before xs ys hcomparable _ ih =>
    intro b d after hab hcd
    obtain ⟨xs', rfl, hxs, hinvariant, hvalues⟩ := hab.exists_map ha
    obtain ⟨ys', rfl, hys, hinvariant', hvalues'⟩ := hcd.exists_map hc
    rw [hinvariant, hinvariant', length_eq_of_perm hxs, length_eq_of_perm hys] at hcomparable
    rw [equal_map, if_pos hcomparable]
    have halike : ComparedAlike xs ys xs' ys' := by
      intro k l x x' y y' hx hx' hy hy' before after
      have hxmem := Entries.mem_of_get? hx
      have hymem := Entries.mem_of_get? hy
      exact ih x ⟨k, hxmem⟩ y ⟨l, hymem⟩ before (ha.entry hxmem) (hc.entry hymem) after
        (hvalues k x x' hx hx') (hvalues' l y y' hy hy')
    exact halike.allEntries_eq ha.here.distinct hc.here.distinct hxs hys _ _
  | case12 before xs ys hrefused =>
    intro b d after hab hcd
    obtain ⟨xs', rfl, hxs, hinvariant, hvalues⟩ := hab.exists_map ha
    obtain ⟨ys', rfl, hys, hinvariant', hvalues'⟩ := hcd.exists_map hc
    rw [hinvariant, hinvariant', length_eq_of_perm hxs, length_eq_of_perm hys] at hrefused
    rw [equal_map, if_neg hrefused]
  | case13 a c before hwrapped hnil hbool hint hdouble hstr hbytes harray hmap =>
    intro b d after hab hcd
    have hkind : a.kind ≠ c.kind := by
      intro hkind
      cases a <;> cases c
      case nil.nil => exact hnil _ _ rfl rfl
      case bool.bool => exact hbool _ _ rfl rfl
      case int.int => exact hint _ _ rfl rfl
      case double.double => exact hdouble _ _ rfl rfl
      case str.str => exact hstr _ _ rfl rfl
      case bytes.bytes => exact hbytes _ _ rfl rfl
      case array.array => exact harray _ _ rfl rfl
      case map.map => exact hmap _ _ rfl rfl
      -- Different kinds are left, and layers, of which there are none.
      all_goals simp [isWrapped, kind, type] at hwrapped hkind
    have hwrapped' := Bool.eq_false_iff.2 hwrapped
    rw [hab.isWrapped_eq, hcd.isWrapped_eq] at hwrapped'
    rw [hab.kind_eq, hcd.kind_eq] at hkind
    rw [equal_of_kind_ne hwrapped' hkind]
  | _ =>
    intro b d after hab hcd
    cases hab
    cases hcd
    simp [equal, isWrapped]

/-! What a map hands to its formatter. -/

/-- The formatter of a map gets each key once, by increasing key, with the text of its value. -/
def HandsOverByKey (format : FormatConfig) : Value → Prop
  | map entries => ∀ history,
    let texts := Entries.sorted (entryTexts format entries history).1
    ((map entries).text? format history).1 = some (format.formatters.map texts) ∧
      (Entries.keys texts).Pairwise (· < ·) ∧
      (∀ key, key ∈ Entries.keys texts ↔ key ∈ Entries.keys entries) ∧
      ∀ key text v, (key, text) ∈ texts → (key, v) ∈ entries →
        ∀ before, text = (v.text? format before).1.getD format.formatters.nil
  | _ => True

theorem handsOverByKey (format : FormatConfig) {v : Value} (h : Everywhere SteadyHere v) :
    HandsOverByKey format v := by
  cases v with
  | map entries =>
    intro history
    have hdistinct : Entries.Distinct (entryTexts format entries history).1 := by
      rw [Entries.Distinct, keys_entryTexts]
      exact h.here.distinct
    refine ⟨rfl, hdistinct.increasing_sorted, fun key => ?_, fun key text v htext hv before => ?_⟩
    · rw [(Entries.keys_sorted_perm _).mem_iff, keys_entryTexts]
    · obtain ⟨before', hget⟩ := get?_entryTexts format entries key history
      rw [hdistinct.get?_of_mem (List.mem_mergeSort.1 htext),
        Entries.Distinct.get?_of_mem h.here.distinct hv, Option.map_some] at hget
      rw [Option.some.inj hget, (reordered_self v).sameText (h.entry hv) before' before]
  | _ => trivial

theorem everywhere_handsOverByKey (format : FormatConfig) {v : Value}
    (h : Everywhere SteadyHere v) : Everywhere (HandsOverByKey format) v := by
  induction h with
  | intro here parts ih => exact .intro (handsOverByKey format (.intro here parts)) ih

/-- Where lazy values keep their answers, the order of entries is seen in no text, description or
condition, nor in a comparison with a value that keeps its promises. -/
theorem order_unobserved {a b : Value} (h : Reordered a b) (ha : Everywhere SteadyHere a) :
    (∀ (format : FormatConfig) (before after : History),
        (a.text? format before).1 = (b.text? format after).1) ∧
      a.detailed = b.detailed ∧ a.brief = b.brief ∧
      (∀ before after, (a.isTruthy before).1 = (b.isTruthy after).1) ∧
      (∀ c, Everywhere ReliableHere c → ∀ before after,
        (a.equal c before).1 = (b.equal c after).1 ∧
          (c.equal a before).1 = (c.equal b after).1) ∧
      ∀ format, Everywhere (HandsOverByKey format) a := by
  have hdistinct : Everywhere DistinctKeys a := ha.imp fun _ h => h.distinct
  have hreliable : Everywhere ReliableHere a := ha.imp fun _ h => h.reliableHere
  refine ⟨fun format => h.sameText ha, h.detailed_eq hdistinct, h.brief_eq hdistinct,
    h.isTruthy ha.steady, fun c hc before after => ?_, fun format =>
    everywhere_handsOverByKey format ha⟩
  exact ⟨equal_eq_of_reordered hreliable hc before after h (reordered_self c),
    equal_eq_of_reordered hc hreliable before after (reordered_self c) h⟩

/-- The entries in another order, behind the same promise. -/
def reversedMap : Value :=
  lazy { serial := 0, label := "map", returns := .bool, invariant := true } fun _ =>
    map mixedEntries.reverse

theorem order_unobserved_map : Reordered miscastMap reversedMap ∧
    Everywhere SteadyHere miscastMap ∧
    (miscastMap.text? {} []).1 = (reversedMap.text? {} []).1 ∧
    (miscastMap.equal miscastMap []).1 = (reversedMap.equal miscastMap []).1 := by
  have hreordered : Reordered miscastMap reversedMap :=
    .lazy _ fun _ => reordered_of_perm (List.reverse_perm _).symm distinct_mixedEntries
  have hsteady : Everywhere SteadyHere miscastMap :=
    everywhere_miscastMap ⟨fun _ _ => rfl, trivial⟩ ⟨trivial, distinct_mixedEntries⟩
      ⟨trivial, trivial⟩ ⟨trivial, trivial⟩ ⟨trivial, trivial⟩
  obtain ⟨htext, _, _, _, hequal, _⟩ := order_unobserved hreordered hsteady
  have hthird : Everywhere ReliableHere miscastMap := hsteady.imp fun _ h => h.reliableHere
  exact ⟨hreordered, hsteady, htext {} [] [], (hequal miscastMap hthird [] []).1⟩

/-! A broken promise. -/

theorem equal_int_lazy {task : Task} {compute : History → Value} {n m : Int64} {history : History}
    (htask : task.invariant = true) (h : compute history = int m) :
    (int n).equal (lazy task compute) history = (n == m, .ran task :: history) := by
  rw [equal_of_wrapped rfl]
  simp [isInvariant, sameDeclared, isWrapped, resolve, equal, htask, h]

def numbered : Entries Value := [("immutable", int 1), ("denies", int 2)]

def renumbered : Entries Value := [("denies", int 2), ("immutable", int 1)]

theorem distinct_numbered : Entries.Distinct numbered :=
  (by decide : ["immutable", "denies"].Nodup)

def counter : Task := { serial := 0, label := "count", returns := .int, invariant := true }

/-- It is promised to be pure, but answers 1 on its first run and 2 on the next. -/
def counting : Value := ofResults counter [int 1, int 2]

def countingMap : Value := map [("immutable", counting), ("denies", counting)]

theorem everywhere_int {P : Value → Prop} {n : Int64} (here : P (int n)) : Everywhere P (int n) :=
  everywhere_of_no_part here fun p hp => by cases hp

theorem everywhere_counting : Everywhere DistinctKeys counting := by
  refine everywhere_lazy_iff.2 ⟨trivial, fun history => ?_⟩
  cases hanswer : [int 1, int 2][min (history.runs counter) 1]? with
  | none => exact everywhere_nil_iff.2 trivial
  | some v =>
    have hv := List.mem_of_getElem? hanswer
    simp only [List.mem_cons, List.not_mem_nil, or_false] at hv
    rw [Option.getD_some]
    obtain rfl | rfl := hv
    · exact everywhere_int trivial
    · exact everywhere_int trivial

/-- The entry that arrived first on the left is compared with the first answer. -/
theorem order_observed : Reordered (map numbered) (map renumbered) ∧
    Everywhere SteadyHere (map numbered) ∧ Everywhere DistinctKeys countingMap ∧
    ((map numbered).equal countingMap []).1 = true ∧
    ((map renumbered).equal countingMap []).1 = false := by
  refine ⟨reordered_of_perm (.swap ..) distinct_numbered, ?_, ?_, ?_, ?_⟩
  · refine everywhere_map_iff.2 ⟨⟨trivial, distinct_numbered⟩, fun key v hv => ?_⟩
    simp only [numbered, List.mem_cons, Prod.mk.injEq, List.not_mem_nil, or_false] at hv
    obtain ⟨_, rfl⟩ | ⟨_, rfl⟩ := hv
    · exact everywhere_int ⟨trivial, trivial⟩
    · exact everywhere_int ⟨trivial, trivial⟩
  · refine everywhere_map_iff.2 ⟨distinct_numbered, fun key v hv => ?_⟩
    simp only [List.mem_cons, Prod.mk.injEq, List.not_mem_nil, or_false, ← or_and_right] at hv
    exact hv.2 ▸ everywhere_counting
  · have hfirst : (int 1).equal counting [] = (true, [.ran counter]) :=
      equal_int_lazy (m := 1) rfl rfl
    have hsecond : (int 2).equal counting [.ran counter] = (true, [.ran counter, .ran counter]) :=
      equal_int_lazy (m := 2) rfl rfl
    rw [countingMap, equal_map, if_pos (by rfl), numbered, allEntries_cons_some rfl,
      RunM.bind_apply, hfirst, if_pos rfl, allEntries_cons_some rfl, RunM.bind_apply, hsecond]
    rfl
  · have hfirst : (int 2).equal counting [] = (false, [.ran counter]) :=
      equal_int_lazy (m := 1) rfl rfl
    rw [countingMap, equal_map, if_pos (by rfl), renumbered, allEntries_cons_some rfl,
      RunM.bind_apply, hfirst]
    rfl

end TemplateRender.Value
