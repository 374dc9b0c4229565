import TemplateRender.Proofs.LayerCount
import TemplateRender.Proofs.PlainEquality

/-!
Comparisons reach an answer. What a comparison does is put down rule by rule, without a promise
that the rules ever come to an end (`Compares`). They do, because a comparison goes on with values
of which one has fewer layers and the other no more, or with parts of the two values that it is
about (`answered_values`). The answer is that of `equal` (`Compares.run_eq`). Main statement:
resolving ends after as many steps as there are layers, and every comparison ends
(`resolve_and_compare_end`).
-/
namespace TemplateRender.Value

/-- What is compared: two values, two lists position by position, or the entries of one map with
what another map has under their keys. -/
inductive Comparison where
  | values (a b : Value)
  | items (xs ys : List Value)
  | entries (xs ys : Entries Value)

/-- A comparison reaches an answer, from the first history to the second. -/
inductive Compares : Comparison → History → Bool → History → Prop where
  | opened {a b : Value} {before after : History} {answer : Bool} :
      (a.isWrapped || b.isWrapped) = true →
      (a.isInvariant && b.isInvariant && sameDeclared a b) = true →
      Compares (.values (a.resolve before).1 (b.resolve (a.resolve before).2).1)
        (b.resolve (a.resolve before).2).2 answer after →
      Compares (.values a b) before answer after
  | refused {a b : Value} (before : History) : (a.isWrapped || b.isWrapped) = true →
      ¬(a.isInvariant && b.isInvariant && sameDeclared a b) = true →
      Compares (.values a b) before false before
  | unlike {a b : Value} (before : History) : (a.isWrapped || b.isWrapped) = false →
      a.kind ≠ b.kind → Compares (.values a b) before false before
  | nil (declared declared' : ValueType) (before : History) :
      Compares (.values (nil declared) (nil declared')) before true before
  | bool (x y : Bool) (before : History) :
      Compares (.values (bool x) (bool y)) before (x == y) before
  | int (x y : Int64) (before : History) :
      Compares (.values (int x) (int y)) before (x == y) before
  | double (x y : Double) (before : History) :
      Compares (.values (double x) (double y)) before (x.equal y) before
  | str (x y : String) (before : History) :
      Compares (.values (str x) (str y)) before (x == y) before
  | bytes (x y : List UInt8) (before : History) :
      Compares (.values (bytes x) (bytes y)) before (x == y) before
  | array {xs ys : List Value} {before after : History} {answer : Bool} :
      (itemsInvariant xs && itemsInvariant ys && xs.length == ys.length) = true →
      Compares (.items xs ys) before answer after →
      Compares (.values (array xs) (array ys)) before answer after
  | arrayRefused {xs ys : List Value} (before : History) :
      ¬(itemsInvariant xs && itemsInvariant ys && xs.length == ys.length) = true →
      Compares (.values (array xs) (array ys)) before false before
  | map {xs ys : Entries Value} {before after : History} {answer : Bool} :
      (entriesInvariant xs && entriesInvariant ys && xs.length == ys.length) = true →
      Compares (.entries xs ys) before answer after →
      Compares (.values (map xs) (map ys)) before answer after
  | mapRefused {xs ys : Entries Value} (before : History) :
      ¬(entriesInvariant xs && entriesInvariant ys && xs.length == ys.length) = true →
      Compares (.values (map xs) (map ys)) before false before
  | itemsDone (before : History) : Compares (.items [] []) before true before
  | itemsDiffer {x y : Value} {before after : History} (xs ys : List Value) :
      Compares (.values x y) before false after →
      Compares (.items (x :: xs) (y :: ys)) before false after
  | itemsAgree {x y : Value} {xs ys : List Value} {before between after : History}
      {answer : Bool} : Compares (.values x y) before true between →
      Compares (.items xs ys) between answer after →
      Compares (.items (x :: xs) (y :: ys)) before answer after
  | entriesDone (ys : Entries Value) (before : History) :
      Compares (.entries [] ys) before true before
  | entriesMissing {key : String} {ys : Entries Value} (x : Value) (xs : Entries Value)
      (before : History) : Entries.get? ys key = none →
      Compares (.entries ((key, x) :: xs) ys) before false before
  | entriesDiffer {key : String} {x y : Value} {ys : Entries Value} {before after : History}
      (xs : Entries Value) : Entries.get? ys key = some y →
      Compares (.values x y) before false after →
      Compares (.entries ((key, x) :: xs) ys) before false after
  | entriesAgree {key : String} {x y : Value} {xs ys : Entries Value}
      {before between after : History} {answer : Bool} : Entries.get? ys key = some y →
      Compares (.values x y) before true between → Compares (.entries xs ys) between answer after →
      Compares (.entries ((key, x) :: xs) ys) before answer after

def Comparison.run : Comparison → RunM Bool
  | values a b => a.equal b
  | items xs ys => allPairs xs ys fun x _ y _ => x.equal y
  | entries xs ys => allEntries ys xs fun x _ y _ => x.equal y

theorem Compares.run_eq {c : Comparison} {before after : History} {answer : Bool}
    (h : Compares c before answer after) : c.run before = (answer, after) := by
  induction h with
  | opened hwrapped hcomparable _ ih =>
    exact (equal_of_wrapped hwrapped _).trans ((if_pos hcomparable).trans ih)
  | refused _ hwrapped hrefused => exact (equal_of_wrapped hwrapped _).trans (if_neg hrefused)
  | unlike _ hwrapped hkind => exact equal_of_kind_ne hwrapped hkind _
  | array hcomparable _ ih => exact (equal_array ..).trans ((if_pos hcomparable).trans ih)
  | arrayRefused _ hrefused => exact (equal_array ..).trans (if_neg hrefused)
  | map hcomparable _ ih => exact (equal_map ..).trans ((if_pos hcomparable).trans ih)
  | mapRefused _ hrefused => exact (equal_map ..).trans (if_neg hrefused)
  | itemsDone | entriesDone => rfl
  | itemsDiffer xs ys _ ih =>
    simp only [Comparison.run] at ih ⊢
    rw [allPairs, RunM.bind_apply, ih]
    rfl
  | itemsAgree _ _ ihhead ihrest =>
    simp only [Comparison.run] at ihhead ihrest ⊢
    rw [allPairs, RunM.bind_apply, ihhead]
    exact ihrest
  | entriesMissing _ _ _ hget =>
    rw [Comparison.run, allEntries_cons_none hget]
    rfl
  | entriesDiffer _ hget _ ih =>
    simp only [Comparison.run] at ih ⊢
    rw [allEntries_cons_some hget, RunM.bind_apply, ih]
    rfl
  | entriesAgree hget _ _ ihhead ihrest =>
    simp only [Comparison.run] at ihhead ihrest ⊢
    rw [allEntries_cons_some hget, RunM.bind_apply, ihhead]
    exact ihrest
  | _ => simp [Comparison.run, equal, isWrapped]

/-! Every comparison has an answer. -/

/-- One side has fewer layers and the other no more, or the left side is a part of what it was. -/
def Simpler : Value × Value → Value × Value → Prop :=
  InvImage (Prod.Lex (· < ·) (Prod.Lex (· < ·) Part)) fun s => (s.1.layers, s.2.layers, s.1)

theorem simpler_wf : WellFounded Simpler :=
  InvImage.wf _ (wellFounded_lt.prod_lex (wellFounded_lt.prod_lex part_wf))

variable {a b c d : Value}

theorem simpler_of_layers (hca : c.layers ≤ a.layers) (hdb : d.layers ≤ b.layers)
    (h : c.layers < a.layers ∨ d.layers < b.layers ∨ Part c a) : Simpler (c, d) (a, b) := by
  rw [Simpler, InvImage, Prod.lex_def, Prod.lex_def]
  obtain hlt | heq := hca.lt_or_eq
  · exact .inl hlt
  refine .inr ⟨heq, ?_⟩
  obtain hlt | heq' := hdb.lt_or_eq
  · exact .inl hlt
  · exact .inr ⟨heq', (h.resolve_left heq.not_lt).resolve_left heq'.not_lt⟩

theorem simpler_resolve (hwrapped : (a.isWrapped || b.isWrapped) = true)
    (hcomparable : (a.isInvariant && b.isInvariant && sameDeclared a b) = true)
    (history history' : History) :
    Simpler ((a.resolve history).1, (b.resolve history').1) (a, b) := by
  simp only [Bool.or_eq_true, Bool.and_eq_true] at hwrapped hcomparable
  refine simpler_of_layers (layers_resolve_le a _) (layers_resolve_le b _) ?_
  obtain ha | hb := hwrapped
  · exact .inl (layers_resolve_lt hcomparable.1.1 (layers_pos ha) _)
  · exact .inr (.inl (layers_resolve_lt hcomparable.1.2 (layers_pos hb) _))

/-- Whatever ran before, the comparison reaches an answer. -/
def Answered (c : Comparison) : Prop := ∀ before, ∃ answer after, Compares c before answer after

theorem answered_items {xs ys : List Value} (hlength : xs.length = ys.length)
    (h : ∀ x ∈ xs, ∀ y ∈ ys, Answered (.values x y)) : Answered (.items xs ys) := by
  induction xs generalizing ys with
  | nil =>
    obtain rfl : ys = [] := List.length_eq_zero_iff.1 hlength.symm
    exact fun before => ⟨true, before, .itemsDone before⟩
  | cons x xs ih =>
    obtain ⟨y, ys, rfl⟩ := List.exists_cons_of_length_eq_add_one hlength.symm
    intro before
    obtain ⟨answer, between, hhead⟩ :=
      h x (List.mem_cons_self ..) y (List.mem_cons_self ..) before
    cases answer with
    | false => exact ⟨false, between, .itemsDiffer xs ys hhead⟩
    | true =>
      obtain ⟨answer, after, hrest⟩ := ih (Nat.succ.inj hlength)
        (fun x hx y hy => h x (List.mem_cons_of_mem _ hx) y (List.mem_cons_of_mem _ hy)) between
      exact ⟨answer, after, .itemsAgree hhead hrest⟩

theorem answered_entries {xs ys : Entries Value}
    (h : ∀ k x l y, (k, x) ∈ xs → (l, y) ∈ ys → Answered (.values x y)) :
    Answered (.entries xs ys) := by
  induction xs with
  | nil => exact fun before => ⟨true, before, .entriesDone ys before⟩
  | cons pair xs ih =>
    obtain ⟨key, x⟩ := pair
    intro before
    cases hget : Entries.get? ys key with
    | none => exact ⟨false, before, .entriesMissing x xs before hget⟩
    | some y =>
      obtain ⟨answer, between, hhead⟩ :=
        h key x key y (List.mem_cons_self ..) (Entries.mem_of_get? hget) before
      cases answer with
      | false => exact ⟨false, between, .entriesDiffer xs hget hhead⟩
      | true =>
        obtain ⟨answer, after, hrest⟩ :=
          ih (fun k x l y hx => h k x l y (List.mem_cons_of_mem _ hx)) between
        exact ⟨answer, after, .entriesAgree hget hhead hrest⟩

theorem answered_of_parts (hwrapped : (a.isWrapped || b.isWrapped) = false)
    (hparts : ∀ x y, Part x a → Part y b → Answered (.values x y)) : Answered (.values a b) := by
  intro before
  by_cases hkind : a.kind = b.kind
  · cases a <;> cases b
    case nil.nil s t => exact ⟨_, _, .nil s t before⟩
    case bool.bool x y => exact ⟨_, _, .bool x y before⟩
    case int.int x y => exact ⟨_, _, .int x y before⟩
    case double.double x y => exact ⟨_, _, .double x y before⟩
    case str.str x y => exact ⟨_, _, .str x y before⟩
    case bytes.bytes x y => exact ⟨_, _, .bytes x y before⟩
    case array.array xs ys =>
      by_cases hcomparable :
          (itemsInvariant xs && itemsInvariant ys && xs.length == ys.length) = true
      · have hlength : xs.length = ys.length := by
          simp only [Bool.and_eq_true, beq_iff_eq] at hcomparable
          exact hcomparable.2
        obtain ⟨answer, after, h⟩ :=
          answered_items hlength (fun x hx y hy => hparts x y (.item hx) (.item hy)) before
        exact ⟨answer, after, .array hcomparable h⟩
      · exact ⟨false, before, .arrayRefused before hcomparable⟩
    case map.map xs ys =>
      by_cases hcomparable :
          (entriesInvariant xs && entriesInvariant ys && xs.length == ys.length) = true
      · obtain ⟨answer, after, h⟩ :=
          answered_entries (fun k x l y hx hy => hparts x y (.entry hx) (.entry hy)) before
        exact ⟨answer, after, .map hcomparable h⟩
      · exact ⟨false, before, .mapRefused before hcomparable⟩
    -- Different kinds are left, and layers, of which there are none.
    all_goals simp [isWrapped, kind, type] at hwrapped hkind
  · exact ⟨false, before, .unlike before hwrapped hkind⟩

theorem answered_values (a b : Value) : Answered (.values a b) := by
  obtain ⟨s, hs⟩ : ∃ s, s = (a, b) := ⟨_, rfl⟩
  induction s using simpler_wf.induction generalizing a b with
  | _ s ih =>
    subst hs
    cases hwrapped : a.isWrapped || b.isWrapped with
    | false =>
      refine answered_of_parts hwrapped fun x y hx hy => ih _ ?_ x y rfl
      exact simpler_of_layers (layers_part_le hx) (layers_part_le hy) (.inr (.inr hx))
    | true =>
      intro before
      by_cases hcomparable : (a.isInvariant && b.isInvariant && sameDeclared a b) = true
      -- The values that are compared next are no parts of these, but they have fewer layers.
      · have hsimpler := simpler_resolve hwrapped hcomparable before (a.resolve before).2
        obtain ⟨answer, after, h⟩ := ih _ hsimpler _ _ rfl (b.resolve (a.resolve before).2).2
        exact ⟨answer, after, .opened hwrapped hcomparable h⟩
      · exact ⟨false, before, .refused before hwrapped hcomparable⟩

/-- Layers are counted along paths. Resolving adds none and takes some away from an invariant value,
it comes to an end after as many steps as there are layers, and comparisons reach an answer. -/
theorem resolve_and_compare_end :
    (∀ (v : Value) (n : ℕ), v.layers = n ↔ IsGreatest {k | Crosses v k} n) ∧
      (∀ (v : Value) (history : History), (v.resolve history).1.layers ≤ v.layers ∧
        (v.isInvariant = true → 0 < v.layers → (v.resolve history).1.layers < v.layers)) ∧
      (∀ (v : Value) (histories : ℕ → History),
        (∀ n : ℕ, v.layers = n → Resolved (v.resolvedAfter histories n)) ∧
          ∃ n, Resolved (v.resolvedAfter histories n)) ∧
      ∀ (a b : Value) (before : History), ∃ answer after,
        Compares (.values a b) before answer after ∧ a.equal b before = (answer, after) := by
  refine ⟨fun v n => layers_eq_natCast_iff, fun v history => ?_, fun v histories => ?_,
    fun a b before => ?_⟩
  · exact ⟨layers_resolve_le v history, fun hinvariant hpos =>
      layers_resolve_lt hinvariant hpos history⟩
  · exact ⟨fun n h => resolved_resolvedAfter h.le, exists_resolved v histories⟩
  · obtain ⟨answer, after, h⟩ := answered_values a b before
    exact ⟨answer, after, h, h.run_eq⟩

end TemplateRender.Value
