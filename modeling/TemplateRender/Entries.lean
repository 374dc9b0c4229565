/-!
Finite maps from names to values, kept as a list of pairs in the order in which the keys first
arrived. Contexts, map values, tag registries and user info are all of this shape. A key is
inserted at most once, so the keys of every map built with `insert` are distinct, and look-up
does not depend on the order of the pairs.
-/
namespace TemplateRender

abbrev Entries (α : Type) := List (String × α)

namespace Entries

variable {α : Type}

def get? (entries : Entries α) (key : String) : Option α := entries.lookup key

def contains (entries : Entries α) (key : String) : Bool := (entries.get? key).isSome

/-- Replaces the value under a key that is present and appends a new pair otherwise. -/
def insert (key : String) (value : α) : Entries α → Entries α
  | [] => [(key, value)]
  | (k, v) :: rest => if k == key then (key, value) :: rest else (k, v) :: insert key value rest

/-- The pairs inserted one after another, so that the last value of a repeated key is kept. -/
def ofList (pairs : List (String × α)) : Entries α :=
  pairs.foldl (fun entries pair => insert pair.1 pair.2 entries) []

def keys (entries : Entries α) : List String := entries.map Prod.fst

/-- Each key occurs once. -/
def Distinct (entries : Entries α) : Prop := (keys entries).Nodup

/-- The pairs by increasing key, keys compared by code points. -/
def sorted (entries : Entries α) : Entries α :=
  entries.mergeSort fun a b => decide (a.1 ≤ b.1)

def sortedKeys (entries : Entries α) : List String :=
  (keys entries).mergeSort fun a b => decide (a ≤ b)

theorem get?_nil (key : String) : get? ([] : Entries α) key = none := rfl

theorem get?_cons (k key : String) (v : α) (rest : Entries α) :
    get? ((k, v) :: rest) key = if key == k then some v else get? rest key := by
  simp only [get?, List.lookup_cons]
  split <;> simp_all

theorem mem_of_get? {entries : Entries α} {key : String} {value : α}
    (h : get? entries key = some value) : (key, value) ∈ entries := by
  induction entries with
  | nil => simp [get?_nil] at h
  | cons pair rest ih =>
    obtain ⟨k, v⟩ := pair
    rw [get?_cons] at h
    split at h
    · simp_all
    · exact List.mem_cons_of_mem _ (ih h)

/-- What all entries have in common, whatever is found has. -/
theorem of_get? {p : α → Prop} {entries : Entries α} (h : ∀ entry ∈ entries, p entry.2)
    (key : String) (value : α) (hget : get? entries key = some value) : p value :=
  h (key, value) (mem_of_get? hget)

theorem get?_insert (entries : Entries α) (key name : String) (value : α) :
    get? (insert key value entries) name =
      if name == key then some value else get? entries name := by
  induction entries with
  | nil => simp only [insert, get?_cons, get?_nil]
  | cons pair rest ih =>
    obtain ⟨k, v⟩ := pair
    by_cases hk : k = key
    · subst hk
      by_cases hn : name = k <;> simp [insert, get?_cons, hn]
    · by_cases hn : name = k
      · subst hn
        simp [insert, get?_cons, hk]
      · simp [insert, get?_cons, hk, hn, ih]

theorem mem_keys_insert (entries : Entries α) (key name : String) (value : α) :
    name ∈ keys (insert key value entries) ↔ name = key ∨ name ∈ keys entries := by
  induction entries with
  | nil => simp [insert, keys]
  | cons pair rest ih =>
    obtain ⟨k, v⟩ := pair
    by_cases hk : k = key
    · subst hk
      simp [insert, keys]
    · simp only [keys] at ih
      simp only [insert, hk, beq_iff_eq, if_false, keys, List.map_cons, List.mem_cons, ih]
      constructor
      · rintro (h | h | h) <;> simp [h]
      · rintro (h | h | h) <;> simp [h]

theorem distinct_nil : Distinct ([] : Entries α) := List.nodup_nil

theorem Distinct.insert {entries : Entries α} (h : Distinct entries) (key : String) (value : α) :
    Distinct (Entries.insert key value entries) := by
  induction entries with
  | nil => simp [Entries.insert, Distinct, keys]
  | cons pair rest ih =>
    obtain ⟨k, v⟩ := pair
    have hrest : Distinct rest := (List.nodup_cons.1 h).2
    have hk : k ∉ keys rest := (List.nodup_cons.1 h).1
    by_cases heq : k = key
    · subst heq
      simpa [Entries.insert, Distinct, keys] using h
    · simp only [Entries.insert, heq, beq_iff_eq, if_false]
      apply List.nodup_cons.2
      refine ⟨?_, ih hrest⟩
      intro hmem
      rcases (mem_keys_insert rest key k value).1 hmem with h' | h'
      · exact heq h'
      · exact hk h'

theorem distinct_ofList (pairs : List (String × α)) : Distinct (ofList pairs) := by
  have hfold : ∀ (entries : Entries α), Distinct entries →
      Distinct
        (pairs.foldl (fun entries pair => Entries.insert pair.1 pair.2 entries) entries) := by
    induction pairs with
    | nil => exact fun _ h => h
    | cons pair rest ih => exact fun entries h => ih _ (h.insert pair.1 pair.2)
  exact hfold [] distinct_nil

end Entries

end TemplateRender
