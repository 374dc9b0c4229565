import TemplateRender.Proofs.MapOrder
import TemplateRender.Proofs.Purity

/-!
Comparing arrays and maps as values against comparing what they hold. A comparison of values asks
first whether both sides are invariant as a whole, and otherwise runs nothing. What they hold is
compared element by element, and each comparison asks for its two elements only, so tasks may run
before an element that is not invariant is met. The answer is the same all the same: elements that
turned out equal are invariant, and where every comparison held, none was left out. Main statement:
`equal_eq_equalContents`.
-/
namespace TemplateRender.Value

theorem isInvariant_of_equal {a b : Value} {history : History}
    (h : (a.equal b history).1 = true) : a.isInvariant = true ∧ b.isInvariant = true := by
  by_contra hnot
  rw [not_and_or, Bool.not_eq_true, Bool.not_eq_true] at hnot
  rw [equal_of_not_invariant hnot] at h
  exact Bool.false_ne_true h

/-- Lists of one length with equal elements hold nothing that is not invariant. -/
theorem itemsInvariant_of_allPairs {xs ys : List Value} (hlength : xs.length = ys.length)
    {history : History} (h : (allPairs xs ys (fun x _ y _ => equal x y) history).1 = true) :
    itemsInvariant xs = true ∧ itemsInvariant ys = true := by
  induction xs generalizing ys history with
  | nil =>
    obtain rfl : ys = [] := List.length_eq_zero_iff.1 hlength.symm
    exact ⟨rfl, rfl⟩
  | cons x xs ih =>
    obtain ⟨y, ys, rfl⟩ := List.exists_cons_of_length_eq_add_one hlength.symm
    rw [allPairs, RunM.bind_apply] at h
    cases hhead : (x.equal y history).1 with
    | false => simp [hhead] at h
    | true =>
      rw [if_pos hhead] at h
      obtain ⟨hx, hy⟩ := isInvariant_of_equal hhead
      obtain ⟨hxs, hys⟩ := ih (Nat.succ.inj hlength) h
      simp [itemsInvariant, hx, hy, hxs, hys]

/-- Every entry of the first map has met an equal one, whatever ran in between. -/
theorem invariant_of_allEntries {xs ys : Entries Value} {history : History}
    (h : (allEntries ys xs (fun x _ y _ => equal x y) history).1 = true) :
    ∀ key x, (key, x) ∈ xs →
      x.isInvariant = true ∧ ∃ y, Entries.get? ys key = some y ∧ y.isInvariant = true := by
  induction xs generalizing history with
  | nil => simp
  | cons pair xs ih =>
    obtain ⟨k, v⟩ := pair
    cases hget : Entries.get? ys k with
    | none =>
      rw [allEntries_cons_none hget] at h
      exact absurd h Bool.false_ne_true
    | some w =>
      rw [allEntries_cons_some hget, RunM.bind_apply] at h
      cases hhead : (v.equal w history).1 with
      | false => simp [hhead] at h
      | true =>
        rw [if_pos hhead] at h
        obtain ⟨hv, hw⟩ := isInvariant_of_equal hhead
        intro key x hmem
        rcases List.mem_cons.1 hmem with heq | hrest
        · obtain ⟨rfl, rfl⟩ := Prod.mk.inj heq
          exact ⟨hv, w, hget, hw⟩
        · exact ih h key x hrest

/-- Of two maps of one size, the walk through the first has been at every entry of the second. -/
theorem entriesInvariant_of_allEntries {xs ys : Entries Value} (hx : Entries.Distinct xs)
    (hlength : xs.length = ys.length) {history : History}
    (h : (allEntries ys xs (fun x _ y _ => equal x y) history).1 = true) :
    entriesInvariant xs = true ∧ entriesInvariant ys = true := by
  have hmet := invariant_of_allEntries h
  have hperm : (Entries.keys xs).Perm (Entries.keys ys) := by
    refine hx.keys_perm hlength fun key hkey => ?_
    obtain ⟨⟨_, x⟩, hmem, rfl⟩ := List.mem_map.1 hkey
    obtain ⟨_, y, hget, _⟩ := hmet _ x hmem
    exact Entries.mem_keys (Entries.mem_of_get? hget)
  have hy : Entries.Distinct ys := hperm.nodup_iff.1 hx
  rw [entriesInvariant_iff, entriesInvariant_iff]
  constructor
  · rintro ⟨key, x⟩ hmem
    exact (hmet key x hmem).1
  · rintro ⟨key, y⟩ hmem
    obtain ⟨⟨_, x⟩, hx, rfl⟩ := List.mem_map.1 (hperm.mem_iff.2 (Entries.mem_keys hmem))
    obtain ⟨_, z, hget, hz⟩ := hmet _ x hx
    obtain rfl : z = y := Option.some.inj (hget.symm.trans (hy.get?_of_mem hmem))
    exact hz

section Guards

variable (history : History)

/-- Arrays are compared by what they hold once both are known to be invariant. -/
theorem equal_array_eq_guarded (xs ys : List Value) : (array xs).equal (array ys) history =
    if itemsInvariant xs && itemsInvariant ys then equalItems xs ys history
    else (false, history) := by
  rw [equal_array, equalItems]
  cases itemsInvariant xs && itemsInvariant ys <;> cases xs.length == ys.length <;> rfl

theorem equal_map_eq_guarded (xs ys : Entries Value) : (map xs).equal (map ys) history =
    if entriesInvariant xs && entriesInvariant ys then equalEntries xs ys history
    else (false, history) := by
  rw [equal_map, equalEntries]
  cases entriesInvariant xs && entriesInvariant ys <;> cases xs.length == ys.length <;> rfl

/-- A guard that holds wherever the answer is yes does not change the answer. -/
theorem fst_guarded {guard : Bool} {answer : Bool × History} (h : answer.1 = true → guard = true) :
    (if guard then answer else (false, history)).1 = answer.1 := by
  cases guard with
  | true => rfl
  | false =>
    rw [if_neg Bool.false_ne_true]
    exact (Bool.eq_false_iff.2 fun hyes => Bool.false_ne_true (h hyes)).symm

end Guards

theorem itemsInvariant_of_equalItems {xs ys : List Value} {history : History}
    (h : (equalItems xs ys history).1 = true) :
    itemsInvariant xs = true ∧ itemsInvariant ys = true := by
  unfold equalItems at h
  split at h
  next hlength => exact itemsInvariant_of_allPairs (beq_iff_eq.1 hlength) h
  next => exact absurd h Bool.false_ne_true

theorem entriesInvariant_of_equalEntries {xs ys : Entries Value} (hx : Entries.Distinct xs)
    {history : History} (h : (equalEntries xs ys history).1 = true) :
    entriesInvariant xs = true ∧ entriesInvariant ys = true := by
  unfold equalEntries at h
  split at h
  next hlength => exact entriesInvariant_of_allEntries hx (beq_iff_eq.1 hlength) h
  next => exact absurd h Bool.false_ne_true

/-- From the same history, comparing two arrays or two maps gives the answer of comparing what they
hold, and only invariant values are equal. Answers of lazy values may change from run to run. -/
theorem equal_eq_equalContents (history : History) :
    (∀ xs ys : List Value, (equalContents? (array xs) (array ys) history).1 =
      some ((array xs).equal (array ys) history).1) ∧
    (∀ xs ys : Entries Value, Entries.Distinct xs →
      (equalContents? (map xs) (map ys) history).1 =
        some ((map xs).equal (map ys) history).1) ∧
    ∀ a b : Value, (a.equal b history).1 = true →
      a.isInvariant = true ∧ b.isInvariant = true := by
  refine ⟨fun xs ys => ?_, fun xs ys hx => ?_, fun a b => isInvariant_of_equal⟩
  · rw [equal_array_eq_guarded, fst_guarded]
    · rfl
    · intro h
      obtain ⟨hxs, hys⟩ := itemsInvariant_of_equalItems h
      rw [hxs, hys, Bool.and_self]
  · rw [equal_map_eq_guarded, fst_guarded]
    · rfl
    · intro h
      obtain ⟨hxs, hys⟩ := entriesInvariant_of_equalEntries hx h
      rw [hxs, hys, Bool.and_self]

/-- The maps are equal though the answers under their keys change. Of the arrays, only the
comparison of what they hold runs something before it fails. -/
theorem equal_eq_equalContents_counting :
    Entries.Distinct numbered ∧
      ((map numbered).equal countingMap []).1 = true ∧
      (equalContents? (map numbered) countingMap []).1 = some true ∧
      (map numbered).isInvariant = true ∧ countingMap.isInvariant = true ∧
      (array [int 1, guarded]).equal (array [counting, int 1]) [] = (false, []) ∧
      equalContents? (array [int 1, guarded]) (array [counting, int 1]) [] =
        (some false, [.ran counter]) := by
  have hfirst : (int 1).equal counting [] = (true, [.ran counter]) :=
    equal_int_lazy (m := 1) rfl rfl
  have hsecond : (int 2).equal counting [.ran counter] = (true, [.ran counter, .ran counter]) :=
    equal_int_lazy (m := 2) rfl rfl
  have hequal : ((map numbered).equal countingMap []).1 = true := by
    rw [countingMap, equal_map, if_pos (by rfl), numbered, allEntries_cons_some rfl,
      RunM.bind_apply, hfirst, if_pos rfl, allEntries_cons_some rfl, RunM.bind_apply, hsecond]
    rfl
  have hguarded : guarded.equal (int 1) [.ran counter] = (false, [.ran counter]) :=
    equal_of_not_invariant (Or.inl rfl) _
  obtain ⟨_, hmaps, hinvariant⟩ := equal_eq_equalContents []
  obtain ⟨hleft, hright⟩ := hinvariant _ _ hequal
  refine ⟨distinct_numbered, hequal, ?_, hleft, hright, equal_of_not_invariant (Or.inl rfl) [], ?_⟩
  · rw [countingMap, hmaps numbered _ distinct_numbered]
    exact congrArg some hequal
  · simp only [equalContents?, equalItems, allPairs, RunM.map_apply]
    rw [if_pos (by rfl), RunM.bind_apply, hfirst, if_pos rfl, RunM.bind_apply, hguarded]
    rfl

end TemplateRender.Value
