import TemplateRender.Render.Path

/-!
Paths and their initial parts. Splitting commutes with putting a dot between two paths, so the
initial parts that end before a dot are in step with the proper initial parts of the list of
segments: there is one for each number of segments (`exists_before`), and each is of this kind
(`Before.others_eq`). The shorter text has the fewer segments (`Before.length_others_lt`).
-/
namespace TemplateRender.Path

theorem split_cons_dot (cs : List Char) :
    split ('.' :: cs) = ([], (split cs).1 :: (split cs).2) := by
  simp [split]

theorem split_cons_of_ne {c : Char} (hc : c ≠ '.') (cs : List Char) :
    split (c :: cs) = (c :: (split cs).1, (split cs).2) := by
  simp [split, hc]

theorem split_append_dot (cs ds : List Char) :
    split (cs ++ '.' :: ds) = ((split cs).1, (split cs).2 ++ (split ds).1 :: (split ds).2) := by
  induction cs with
  | nil => exact split_cons_dot ds
  | cons c cs ih =>
    rw [List.cons_append]
    by_cases hc : c = '.'
    · rw [hc, split_cons_dot, split_cons_dot, ih, List.cons_append]
    · rw [split_cons_of_ne hc, split_cons_of_ne hc, ih]

theorem toList_dot (p q : String) : (p ++ "." ++ q).toList = p.toList ++ '.' :: q.toList := by
  simp

theorem first_dot (p q : String) : first (p ++ "." ++ q) = first p := by
  rw [first, toList_dot, split_append_dot, first]

theorem others_dot (p q : String) : others (p ++ "." ++ q) = others p ++ first q :: others q := by
  rw [others, toList_dot, split_append_dot, List.map_append, List.map_cons]
  rfl

/-- The first text is an initial part of the second that ends before one of its dots. -/
def Before (p path : String) : Prop := ∃ rest, path = p ++ "." ++ rest

namespace Before

variable {p q path : String}

theorem first_eq (h : Before p path) : first p = first path := by
  obtain ⟨rest, rfl⟩ := h
  exact (first_dot p rest).symm

theorem length_others (h : Before p path) : (others p).length < (others path).length := by
  obtain ⟨rest, rfl⟩ := h
  rw [others_dot, List.length_append, List.length_cons]
  omega

theorem others_eq (h : Before p path) : others p = (others path).take (others p).length := by
  obtain ⟨rest, rfl⟩ := h
  rw [others_dot, List.take_left]

/-- Of two initial parts the shorter one is an initial part of the other. -/
theorem of_length_lt (hp : Before p path) (hq : Before q path) (hlt : p.length < q.length) :
    Before p q := by
  obtain ⟨rest, rfl⟩ := hp
  obtain ⟨tail, htail⟩ := hq
  have hlists : p.toList ++ '.' :: rest.toList = q.toList ++ '.' :: tail.toList := by
    rw [← toList_dot, ← toList_dot, htail]
  have hle : p.toList.length ≤ q.toList.length := by
    simpa only [String.length_toList] using Nat.le_of_lt hlt
  obtain ⟨middle, hmiddle⟩ := List.prefix_of_prefix_length_le ⟨_, hlists⟩ ⟨_, rfl⟩ hle
  rw [← hmiddle, List.append_assoc, List.append_cancel_left_eq] at hlists
  -- What is between them is not empty, so it starts with the dot after the shorter part.
  cases middle with
  | nil =>
    have hlength := congrArg List.length hmiddle
    simp only [List.append_nil, String.length_toList] at hlength
    omega
  | cons c more =>
    obtain ⟨rfl, _⟩ := List.cons.inj hlists
    refine ⟨String.ofList more, String.toList_inj.1 ?_⟩
    rw [toList_dot, String.toList_ofList, hmiddle]

theorem length_others_lt (hp : Before p path) (hq : Before q path) (hlt : p.length < q.length) :
    (others p).length < (others q).length :=
  (hp.of_length_lt hq hlt).length_others

end Before

theorem exists_split_take (cs : List Char) (n : Nat) (hn : n < (split cs).2.length) :
    ∃ ps rest, cs = ps ++ '.' :: rest ∧ split ps = ((split cs).1, (split cs).2.take n) := by
  induction cs generalizing n with
  | nil => simp [split] at hn
  | cons c cs ih =>
    by_cases hc : c = '.'
    · subst hc
      rw [split_cons_dot] at hn ⊢
      cases n with
      | zero => exact ⟨[], cs, rfl, rfl⟩
      | succ n =>
        obtain ⟨ps, rest, hcs, hsplit⟩ := ih n (Nat.lt_of_succ_lt_succ hn)
        refine ⟨'.' :: ps, rest, by rw [hcs, List.cons_append], ?_⟩
        rw [split_cons_dot, hsplit, List.take_succ_cons]
    · rw [split_cons_of_ne hc] at hn ⊢
      obtain ⟨ps, rest, hcs, hsplit⟩ := ih n hn
      refine ⟨c :: ps, rest, by rw [hcs, List.cons_append], ?_⟩
      rw [split_cons_of_ne hc, hsplit]

/-- There is an initial part for each smaller number of segments. -/
theorem exists_before (path : String) (n : Nat) (hn : n < (others path).length) :
    ∃ p, Before p path ∧ others p = (others path).take n := by
  have hlength : n < (split path.toList).2.length := by simpa [others] using hn
  obtain ⟨ps, rest, hpath, hsplit⟩ := exists_split_take path.toList n hlength
  refine ⟨String.ofList ps, ⟨String.ofList rest, String.toList_inj.1 ?_⟩, ?_⟩
  · rw [toList_dot, String.toList_ofList, String.toList_ofList, hpath]
  · rw [others, String.toList_ofList, hsplit, others, List.map_take]

/-- The first segment and some of the others are the path up to a dot. -/
theorem before_join_take {path : String} {n : Nat} (hn : n < (others path).length) :
    Before (join (first path :: (others path).take n)) path := by
  obtain ⟨p, hp, hothers⟩ := exists_before path n hn
  rwa [← hothers, ← hp.first_eq, join_first_others]

end TemplateRender.Path
