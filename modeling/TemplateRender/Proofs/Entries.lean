import Mathlib.Data.List.Nodup
import Mathlib.Data.List.Perm.Subperm
import TemplateRender.Entries

/-!
Maps as sets of keys with a value each. Two maps with distinct keys have the same keys exactly
when they are of one size and the keys of the first are all in the second, which is how far a
comparison looks that walks through the first map only. Sorting such a map gives a list that the
bindings determine (`Distinct.sorted_eq`).
-/
namespace TemplateRender.Entries

variable {α β : Type}

theorem isSome_get? (entries : Entries α) (key : String) :
    (get? entries key).isSome ↔ key ∈ keys entries := by
  induction entries with
  | nil => simp [get?_nil, keys]
  | cons pair rest ih =>
    obtain ⟨k, v⟩ := pair
    by_cases hk : key = k
    · simp [get?_cons, keys, hk]
    · simpa [get?_cons, keys, hk] using ih

theorem mem_keys {entries : Entries α} {key : String} {v : α} (h : (key, v) ∈ entries) :
    key ∈ keys entries := List.mem_map_of_mem h

theorem Distinct.get?_of_mem {entries : Entries α} (hdistinct : Distinct entries) {key : String}
    {v : α} (h : (key, v) ∈ entries) : get? entries key = some v := by
  induction entries with
  | nil => simp at h
  | cons pair rest ih =>
    obtain ⟨k, w⟩ := pair
    have hfresh : k ∉ keys rest := (List.nodup_cons.1 hdistinct).1
    rcases List.mem_cons.1 h with heq | hmem
    · obtain ⟨rfl, rfl⟩ := Prod.mk.inj heq
      simp [get?_cons]
    · have hk : key ≠ k := by
        rintro rfl
        exact hfresh (mem_keys hmem)
      simpa [get?_cons, hk] using ih (List.nodup_cons.1 hdistinct).2 hmem

theorem get?_map (f : String → α → β) (entries : Entries α) (key : String) :
    get? (entries.map fun pair => (pair.1, f pair.1 pair.2)) key =
      (get? entries key).map (f key) := by
  induction entries with
  | nil => rfl
  | cons pair rest ih =>
    obtain ⟨k, v⟩ := pair
    rw [List.map_cons, get?_cons, get?_cons, ih]
    by_cases hk : key = k <;> simp [hk]

/-- The same keys are bound. -/
def SameKeys (xs : Entries α) (ys : Entries β) : Prop :=
  ∀ key, (get? xs key).isSome ↔ (get? ys key).isSome

theorem sameKeys_iff {xs : Entries α} {ys : Entries β} :
    SameKeys xs ys ↔ ∀ key, key ∈ keys xs ↔ key ∈ keys ys :=
  forall_congr' fun key => by rw [isSome_get?, isSome_get?]

theorem SameKeys.symm {xs : Entries α} {ys : Entries β} (h : SameKeys xs ys) : SameKeys ys xs :=
  fun key => (h key).symm

theorem SameKeys.trans {γ : Type} {xs : Entries α} {ys : Entries β} {zs : Entries γ}
    (hxy : SameKeys xs ys) (hyz : SameKeys ys zs) : SameKeys xs zs :=
  fun key => (hxy key).trans (hyz key)

theorem SameKeys.exists_get? {xs : Entries α} {ys : Entries β} (h : SameKeys xs ys)
    {key : String} {x : α} (hx : get? xs key = some x) : ∃ y, get? ys key = some y :=
  Option.isSome_iff_exists.1 ((h key).1 (by simp [hx]))

/-- Every binding of either map has a partner in the other. -/
theorem SameKeys.forall_mem {P : α → Prop} {Q : β → Prop} {xs : Entries α} {ys : Entries β}
    (hkeys : SameKeys xs ys) (hx : Distinct xs) (hy : Distinct ys)
    (h : ∀ key x y, get? xs key = some x → get? ys key = some y → P x ∧ Q y) :
    (∀ key x, (key, x) ∈ xs → P x) ∧ ∀ key y, (key, y) ∈ ys → Q y := by
  constructor
  · intro key x hmem
    have hget := hx.get?_of_mem hmem
    obtain ⟨y, hy⟩ := hkeys.exists_get? hget
    exact (h key x y hget hy).1
  · intro key y hmem
    have hget := hy.get?_of_mem hmem
    obtain ⟨x, hx⟩ := hkeys.symm.exists_get? hget
    exact (h key x y hx hget).2

theorem SameKeys.forall_mem_iff {P : α → Prop} {Q : β → Prop} {xs : Entries α} {ys : Entries β}
    (hkeys : SameKeys xs ys) (hx : Distinct xs) (hy : Distinct ys)
    (h : ∀ key x y, get? xs key = some x → get? ys key = some y → (P x ↔ Q y)) :
    (∀ key x, (key, x) ∈ xs → P x) ↔ ∀ key y, (key, y) ∈ ys → Q y := by
  constructor
  · intro hP
    refine (hkeys.forall_mem (P := P) hx hy fun key x y hgetx hgety => ?_).2
    have hhere : P x := hP key x (mem_of_get? hgetx)
    exact ⟨hhere, (h key x y hgetx hgety).1 hhere⟩
  · intro hQ
    refine (hkeys.forall_mem (Q := Q) hx hy fun key x y hgetx hgety => ?_).1
    have hhere : Q y := hQ key y (mem_of_get? hgety)
    exact ⟨(h key x y hgetx hgety).2 hhere, hhere⟩

theorem length_keys (entries : Entries α) : (keys entries).length = entries.length :=
  List.length_map _

/-- A walk through the keys of the first of two lists of one size misses no key of the second, even
if it is not known that the keys of the second are distinct. -/
theorem Distinct.keys_perm {xs : Entries α} {ys : Entries β} (hx : Distinct xs)
    (hlength : xs.length = ys.length) (hsubset : keys xs ⊆ keys ys) :
    (keys xs).Perm (keys ys) := by
  have hle : (keys ys).length ≤ (keys xs).length := by
    rw [length_keys, length_keys]
    exact Nat.le_of_eq hlength.symm
  exact (List.Nodup.subperm hx hsubset).perm_of_length_le hle

theorem Distinct.sameKeys_iff_subset {xs : Entries α} {ys : Entries β} (hx : Distinct xs)
    (hy : Distinct ys) : SameKeys xs ys ↔ xs.length = ys.length ∧ keys xs ⊆ keys ys := by
  rw [sameKeys_iff]
  constructor
  · intro h
    have hperm : (keys xs).Perm (keys ys) := (List.perm_ext_iff_of_nodup hx hy).2 h
    refine ⟨?_, hperm.subset⟩
    rw [← length_keys xs, ← length_keys ys, hperm.length_eq]
  · rintro ⟨hlength, hsubset⟩ key
    exact (hx.keys_perm hlength hsubset).mem_iff

theorem pairwise_sorted (entries : Entries α) :
    (sorted entries).Pairwise fun a b => decide (a.1 ≤ b.1) = true :=
  List.pairwise_mergeSort (fun a b c => by simpa using String.le_trans)
    (fun a b => by simpa using String.le_total a.1 b.1) entries

theorem Distinct.mem_iff {entries : Entries α} (hdistinct : Distinct entries) {key : String}
    {v : α} : (key, v) ∈ entries ↔ get? entries key = some v :=
  ⟨hdistinct.get?_of_mem, mem_of_get?⟩

/-- Sorting leaves nothing of the order in which the keys arrived. -/
theorem Distinct.sorted_eq {xs ys : Entries α} (hx : Distinct xs) (hy : Distinct ys)
    (h : ∀ key, get? xs key = get? ys key) : sorted xs = sorted ys := by
  have hperm : xs.Perm ys := by
    refine (List.perm_ext_iff_of_nodup (List.Nodup.of_map _ hx) (List.Nodup.of_map _ hy)).2 ?_
    rintro ⟨key, v⟩
    rw [hx.mem_iff, hy.mem_iff, h key]
  refine List.Perm.eq_of_pairwise ?_ (pairwise_sorted xs) (pairwise_sorted ys)
    ((List.mergeSort_perm xs _).trans (hperm.trans (List.mergeSort_perm ys _).symm))
  rintro ⟨k, v⟩ ⟨l, w⟩ hv hw hle hge
  obtain rfl : k = l := String.le_antisymm (of_decide_eq_true hle) (of_decide_eq_true hge)
  have hv := hx.mem_iff.1 (List.mem_mergeSort.1 hv)
  have hw := hy.mem_iff.1 (List.mem_mergeSort.1 hw)
  rw [h k, hw] at hv
  rw [Option.some.inj hv]

theorem keys_sorted_perm (entries : Entries α) : (keys (sorted entries)).Perm (keys entries) :=
  (List.mergeSort_perm entries _).map Prod.fst

/-- Each key stands in the sorted list once, after all smaller ones. -/
theorem Distinct.increasing_sorted {entries : Entries α} (hdistinct : Distinct entries) :
    (keys (sorted entries)).Pairwise (· < ·) := by
  have hnodup : (keys (sorted entries)).Nodup := (keys_sorted_perm entries).nodup_iff.2 hdistinct
  have hle : (keys (sorted entries)).Pairwise (· ≤ ·) :=
    List.pairwise_map.2 ((pairwise_sorted entries).imp fun h => of_decide_eq_true h)
  refine (hle.and hnodup).imp fun {k l} h => Decidable.byContradiction fun hlt => ?_
  exact h.2 (String.le_antisymm h.1 hlt)

/-- Sorted by key, maps with the same keys and the same images of their values are one list. -/
theorem sorted_map_eq {γ : Type} {f : α → γ} {g : β → γ} {xs : Entries α} {ys : Entries β}
    (hx : Distinct xs) (hy : Distinct ys) (hkeys : SameKeys xs ys)
    (h : ∀ key x y, get? xs key = some x → get? ys key = some y → f x = g y) :
    sorted (xs.map fun pair => (pair.1, f pair.2)) =
      sorted (ys.map fun pair => (pair.1, g pair.2)) := by
  have hkeys_map : ∀ {δ : Type} (e : δ → γ) (entries : Entries δ),
      keys (entries.map fun pair => (pair.1, e pair.2)) = keys entries := by
    intro δ e entries
    simp [keys]
  apply Distinct.sorted_eq
  · rwa [Distinct, hkeys_map]
  · rwa [Distinct, hkeys_map]
  intro key
  rw [get?_map (fun _ => f), get?_map (fun _ => g)]
  cases hget : get? xs key with
  | none =>
    have hget' : get? ys key = none := by simpa [hget] using hkeys key
    rw [hget', Option.map_none, Option.map_none]
  | some x =>
    obtain ⟨y, hget'⟩ := hkeys.exists_get? hget
    rw [hget', Option.map_some, Option.map_some, h key x y hget hget']

/-- A walk through the first map decides both that the keys agree and that the values under them
are related. -/
theorem Distinct.related_iff_walk {R : α → β → Prop} {xs : Entries α} {ys : Entries β}
    (hx : Distinct xs) (hy : Distinct ys) :
    (SameKeys xs ys ∧ ∀ key x y, get? xs key = some x → get? ys key = some y → R x y) ↔
      xs.length = ys.length ∧ ∀ key x, (key, x) ∈ xs → ∃ y, get? ys key = some y ∧ R x y := by
  rw [hx.sameKeys_iff_subset hy, and_assoc]
  refine and_congr_right fun _ => ⟨?_, ?_⟩
  · rintro ⟨hsubset, hvalues⟩ key x hmem
    obtain ⟨y, hget⟩ := Option.isSome_iff_exists.1
      ((isSome_get? ys key).2 (hsubset (mem_keys hmem)))
    exact ⟨y, hget, hvalues key x y (hx.get?_of_mem hmem) hget⟩
  · intro hwalk
    constructor
    · intro key hkey
      obtain ⟨pair, hmem, rfl⟩ := List.mem_map.1 hkey
      obtain ⟨y, hget, _⟩ := hwalk pair.1 pair.2 hmem
      exact mem_keys (mem_of_get? hget)
    · intro key x y hgetx hgety
      obtain ⟨z, hgetz, hrelated⟩ := hwalk key x (mem_of_get? hgetx)
      obtain rfl : y = z := Option.some.inj (hgety.symm.trans hgetz)
      exact hrelated

/-- The bindings made on top of the entries one after another. -/
def override (bindings entries : Entries α) : Entries α :=
  bindings.foldl (fun entries pair => insert pair.1 pair.2 entries) entries

end TemplateRender.Entries
