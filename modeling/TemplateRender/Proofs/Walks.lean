import TemplateRender.Proofs.Everywhere
import TemplateRender.Proofs.Segments

/-!
The two walks along a path. A look-up keeps its last value as it is and gives nil where the path
goes wrong; a loop forces each value as soon as it has it and needs an array in the end. They
agree all the same: a loop finds an array where forcing the looked-up value gives one, and both
run the same tasks. Where no answer changes, the error of a loop names the shortest initial part
of the path that does not lead to a map.
-/
namespace TemplateRender

/-- What a path leads to, forced. -/
def Context.settled (data : Context) (path : String) : RunM Value := do
  (← data.lookup path).forced

def Value.IsMap (v : Value) : Prop := ∃ entries, v = .map entries

namespace Path

/-- What a segment and those after it lead to, forced. Each value is forced when it is reached. -/
def reach (data : Context) (segment : String) : List String → RunM Value
  | [] => return (← data.forced? segment).getD .trueNil
  | next :: rest => do
    match ← data.forced? segment with
    | some (.map entries) => reach entries next rest
    | _ => return .trueNil

/-- Forcing the last value late makes no difference. -/
theorem descend_forced (data : Context) (segment : String) (rest : List String) :
    (match Entries.get? data segment with
      | some v => descend rest v
      | none => return .trueNil) >>= Value.forced = reach data segment rest := by
  funext history
  induction rest generalizing data segment history with
  | nil =>
    cases hget : Entries.get? data segment <;> simp only [reach, Context.forced?, hget] <;> rfl
  | cons next rest ih =>
    cases hget : Entries.get? data segment with
    | none =>
      simp only [reach, Context.forced?, hget]
      rfl
    | some v =>
      simp only [descend, reach, Context.forced?, hget, RunM.bind_apply, RunM.map_apply]
      rcases v.forced history with ⟨settled, after⟩
      cases settled with
      | map entries => exact ih entries next after
      | _ => rfl

theorem settled_eq_reach (data : Context) (path : String) :
    data.settled path = reach data (first path) (others path) :=
  descend_forced data (first path) (others path)

section Steps

variable {data : Context} {segment : String} {history : History}

theorem isMap_reach_nil :
    (reach data segment [] history).1.IsMap ↔
      ∃ entries, (data.forced? segment history).1 = some (.map entries) := by
  simp only [reach, RunM.bind_apply, RunM.pure_apply]
  cases (data.forced? segment history).1 with
  | none => simp [Value.IsMap, Value.trueNil]
  | some v => simp [Value.IsMap]

theorem reach_cons_map {entries : Context} (next : String) (rest : List String)
    (hfound : (data.forced? segment history).1 = some (.map entries)) :
    reach data segment (next :: rest) history =
      reach entries next rest (data.forced? segment history).2 := by
  simp only [reach, RunM.bind_apply, hfound]

theorem reach_cons_other (next : String) (rest : List String)
    (hfound : ∀ entries, (data.forced? segment history).1 ≠ some (.map entries)) :
    reach data segment (next :: rest) history =
      (.trueNil, (data.forced? segment history).2) := by
  simp only [reach, RunM.bind_apply]
  rfl

theorem run_itemsFrom_cons_map {path : String} {entries : Context} (walked : List String)
    (next : String) (rest : List String)
    (hfound : (data.forced? segment history).1 = some (.map entries)) :
    (itemsFrom path data walked segment (next :: rest)).run history =
      (itemsFrom path entries (walked ++ [segment]) next rest).run
        (data.forced? segment history).2 := by
  simp only [itemsFrom, EvalM.run_bind, EvalM.run_lift, hfound]

theorem run_itemsFrom_cons_other {path : String} (walked : List String) (next : String)
    (rest : List String)
    (hfound : ∀ entries, (data.forced? segment history).1 ≠ some (.map entries)) :
    (itemsFrom path data walked segment (next :: rest)).run history =
      (.error (.expectedDictionary (join (walked ++ [segment]))),
        (data.forced? segment history).2) := by
  simp only [itemsFrom, EvalM.run_bind, EvalM.run_lift]
  rfl

end Steps

/-- The loop's walk ends in an array where the other walk does, with the same history. -/
theorem run_itemsFrom (path : String) (data : Context) (walked : List String) (segment : String)
    (rest : List String) (history : History) :
    ((itemsFrom path data walked segment rest).run history).2 =
        (reach data segment rest history).2 ∧
      ∀ items, ((itemsFrom path data walked segment rest).run history).1 = .ok items ↔
        (reach data segment rest history).1 = .array items := by
  induction rest generalizing data walked segment history with
  | nil =>
    simp only [itemsFrom, reach, EvalM.run_bind, EvalM.run_lift, RunM.bind_apply,
      RunM.pure_apply]
    rcases data.forced? segment history with ⟨found, after⟩
    cases found with
    | none => simp [Value.trueNil]
    | some v => cases v <;> simp
  | cons next rest ih =>
    by_cases hfound : ∃ entries, (data.forced? segment history).1 = some (.map entries)
    · obtain ⟨entries, hmap⟩ := hfound
      rw [run_itemsFrom_cons_map walked next rest hmap, reach_cons_map next rest hmap]
      exact ih entries _ next _
    · rw [run_itemsFrom_cons_other walked next rest (not_exists.1 hfound),
        reach_cons_other next rest (not_exists.1 hfound)]
      simp [Value.trueNil]

section Steady

variable {data : Context}

/-- The key leads to the same whenever it is asked for. -/
theorem forced?_steady (hdata : ∀ key v, (key, v) ∈ data → Value.Everywhere Value.Steady v)
    (segment : String) (history other : History) :
    (data.forced? segment history).1 = (data.forced? segment other).1 := by
  unfold Context.forced?
  cases hget : Entries.get? data segment with
  | none => rfl
  | some v =>
    have hv := hdata segment v (Entries.mem_of_get? hget)
    exact congrArg some (Value.forced_steady hv history other)

theorem steady_of_forced? (hdata : ∀ key v, (key, v) ∈ data → Value.Everywhere Value.Steady v)
    {segment : String} {history : History} {entries : Context}
    (hfound : (data.forced? segment history).1 = some (.map entries)) :
    ∀ key v, (key, v) ∈ entries → Value.Everywhere Value.Steady v := by
  unfold Context.forced? at hfound
  cases hget : Entries.get? data segment with
  | none => simp [hget] at hfound
  | some v =>
    have hv := (hdata segment v (Entries.mem_of_get? hget)).forced history
    simp only [hget, RunM.map_apply, Option.some.injEq] at hfound
    rw [hfound] at hv
    exact fun key w hw => hv.entry hw

/-- What a loop blames where it finds no array: the shortest initial part of the segments that does
not lead to a map, or the whole path. A part is given by its segments after the first. -/
inductive Due (path : String) (walked : List String) (segment : String) (rest : List String)
    (leads : List String → Prop) : EvalError → Prop where
  | dictionary (n : Nat) (inside : n < rest.length) (miss : ¬leads (rest.take n))
      (before : ∀ m < n, leads (rest.take m)) :
      Due path walked segment rest leads
        (.expectedDictionary (join (walked ++ segment :: rest.take n)))
  | array (all : ∀ n < rest.length, leads (rest.take n)) :
      Due path walked segment rest leads (.expectedArray path)

/-- After a segment that leads to a map, the loop blames what it blames from there on. -/
theorem Due.cons {path segment next : String} {walked rest : List String}
    {leads leads' : List String → Prop} {e : EvalError}
    (h : Due path (walked ++ [segment]) next rest leads' e) (hhere : leads [])
    (hthere : ∀ taken, leads (next :: taken) ↔ leads' taken) :
    Due path walked segment (next :: rest) leads e := by
  have hstep : ∀ n, (∀ m < n, leads' (rest.take m)) →
      ∀ m < n + 1, leads ((next :: rest).take m) := by
    intro n hall m hm
    cases m with
    | zero => exact hhere
    | succ m => exact (hthere _).2 (hall m (Nat.lt_of_succ_lt_succ hm))
  cases h with
  | dictionary n inside miss before =>
    have hmiss : ¬leads ((next :: rest).take (n + 1)) := fun hleads => miss ((hthere _).1 hleads)
    have hdue : Due path walked segment (next :: rest) leads _ :=
      .dictionary (n + 1) (Nat.succ_lt_succ inside) hmiss (hstep n before)
    rwa [List.append_assoc, List.singleton_append]
  | array all => exact .array (hstep rest.length all)

/-- A loop that fails blames the first segment that does not lead to a map, or the whole path. -/
theorem error_itemsFrom {path : String}
    (hdata : ∀ key v, (key, v) ∈ data → Value.Everywhere Value.Steady v)
    {walked : List String} {segment : String} {rest : List String} {history : History}
    {e : EvalError}
    (hfail : ((itemsFrom path data walked segment rest).run history).1 = .error e)
    (other : History) :
    Due path walked segment rest (fun taken => (reach data segment taken other).1.IsMap) e := by
  induction rest generalizing data walked segment history other with
  | nil =>
    simp only [itemsFrom, EvalM.run_bind, EvalM.run_lift] at hfail
    split at hfail
    next => cases hfail
    next =>
      obtain rfl := Except.error.inj hfail
      exact .array fun n hn => absurd hn (Nat.not_lt_zero n)
  | cons next rest ih =>
    have hsame := forced?_steady hdata segment history other
    by_cases hfound : ∃ entries, (data.forced? segment history).1 = some (.map entries)
    · obtain ⟨entries, hmap⟩ := hfound
      have hmap' : (data.forced? segment other).1 = some (.map entries) := hsame ▸ hmap
      rw [run_itemsFrom_cons_map walked next rest hmap] at hfail
      have hdue := ih (steady_of_forced? hdata hmap) hfail (data.forced? segment other).2
      refine hdue.cons (isMap_reach_nil.2 ⟨entries, hmap'⟩) fun taken => ?_
      rw [reach_cons_map next taken hmap']
    · rw [run_itemsFrom_cons_other walked next rest (not_exists.1 hfound)] at hfail
      obtain rfl := Except.error.inj hfail
      refine .dictionary 0 (Nat.zero_lt_succ _) ?_ fun m hm => absurd hm (Nat.not_lt_zero m)
      rw [List.take_zero, isMap_reach_nil, ← hsame]
      exact hfound

end Steady

end Path

/-- The shortest initial part of a path, cut before a dot, that does not lead to a map. -/
structure Context.FirstMiss (data : Context) (path : String) (history : History) (p : String) :
    Prop where
  before : Path.Before p path
  miss : ¬(data.settled p history).1.IsMap
  shortest : ∀ q, Path.Before q path → ¬(data.settled q history).1.IsMap → p.length ≤ q.length

section Parts

variable {data : Context} {path : String} {history : History}

theorem Context.settled_before {p : String} (hp : Path.Before p path) :
    data.settled p history = Path.reach data (Path.first path)
      ((Path.others path).take (Path.others p).length) history := by
  rw [Path.settled_eq_reach, hp.first_eq, ← hp.others_eq]

/-- Fewer segments are a shorter text, so the first miss among the segments is the shortest. -/
theorem Context.firstMiss_of_take {n : Nat} (inside : n < (Path.others path).length)
    (miss : ¬(Path.reach data (Path.first path) ((Path.others path).take n) history).1.IsMap)
    (before : ∀ m < n,
      (Path.reach data (Path.first path) ((Path.others path).take m) history).1.IsMap) :
    data.FirstMiss path history (Path.join (Path.first path :: (Path.others path).take n)) := by
  obtain ⟨p, hp, hothers⟩ := Path.exists_before path n inside
  rw [← hothers, ← hp.first_eq, Path.join_first_others]
  refine ⟨hp, ?_, fun q hq hmissq => Nat.le_of_not_lt fun hlt => hmissq ?_⟩
  · rw [Path.settled_eq_reach, hp.first_eq, hothers]
    exact miss
  · have hfewer := hq.length_others_lt hp hlt
    rw [hothers, List.length_take] at hfewer
    rw [settled_before hq]
    exact before _ (by omega)

end Parts

/-- A loop finds an array at a path exactly where forcing the looked-up value gives one, with the
same elements, and the same tasks run in the same order. If it fails and no answer ever changes,
its error names the shortest initial part that does not lead to a map, or the whole path if each
initial part leads to one. -/
theorem loopItems_agrees_with_lookup (data : Context) (path : String) (history : History) :
    let loop := (data.loopItems path).run history
    let found := data.settled path history
    (∀ items, loop.1 = .ok items ↔ found.1 = .array items) ∧ loop.2 = found.2 ∧
      ((∀ key v, (key, v) ∈ data → Value.Everywhere Value.Steady v) →
        ∀ e, loop.1 = .error e → ∀ other,
          (∃ p, e = .expectedDictionary p ∧ data.FirstMiss path other p) ∨
            (e = .expectedArray path ∧
              ∀ p, Path.Before p path → (data.settled p other).1.IsMap)) := by
  intro loop found
  obtain ⟨hhistory, hitems⟩ := Path.run_itemsFrom path data [] (Path.first path)
    (Path.others path) history
  have hfound : found = Path.reach data (Path.first path) (Path.others path) history :=
    congrFun (Path.settled_eq_reach data path) history
  refine ⟨hfound ▸ hitems, hfound ▸ hhistory, fun hdata e hfail other => ?_⟩
  cases Path.error_itemsFrom hdata hfail other with
  | dictionary n inside miss before =>
    exact Or.inl ⟨_, rfl, Context.firstMiss_of_take inside miss before⟩
  | array all =>
    refine Or.inr ⟨rfl, fun p hp => ?_⟩
    rw [Context.settled_before hp]
    exact all _ hp.length_others

/-- A task gives a map, in which a slot holds another map, in which the empty name is no map. -/
def layeredMap : Context :=
  [("a", .lazy { serial := 0, label := "a", returns := .map, invariant := false } fun _ =>
    .map [("b", .present (.map [("", .int 1)]) .map)])]

theorem everywhere_steady_layeredMap :
    ∀ key v, (key, v) ∈ layeredMap → Value.Everywhere Value.Steady v := by
  intro key v hv
  obtain ⟨rfl, rfl⟩ := Prod.mk.inj (List.mem_singleton.1 hv)
  refine Value.everywhere_lazy_iff.2 ⟨fun _ _ => rfl, fun _ => ?_⟩
  refine Value.everywhere_map_iff.2 ⟨trivial, fun key v hv => ?_⟩
  obtain ⟨rfl, rfl⟩ := Prod.mk.inj (List.mem_singleton.1 hv)
  refine Value.everywhere_present_iff.2 ⟨trivial, ?_⟩
  refine Value.everywhere_map_iff.2 ⟨trivial, fun key v hv => ?_⟩
  obtain ⟨rfl, rfl⟩ := Prod.mk.inj (List.mem_singleton.1 hv)
  exact Value.everywhere_of_no_part trivial nofun

theorem loopItems_agrees_with_lookup_layeredMap :
    (∀ key v, (key, v) ∈ layeredMap → Value.Everywhere Value.Steady v) ∧
      ((layeredMap.loopItems "a.b..c").run []).1 = .error (.expectedDictionary "a.b.") ∧
      layeredMap.FirstMiss "a.b..c" [] "a.b." := by
  have hfail : ((layeredMap.loopItems "a.b..c").run []).1 =
      .error (.expectedDictionary "a.b.") := rfl
  refine ⟨everywhere_steady_layeredMap, hfail, ?_⟩
  rcases (loopItems_agrees_with_lookup layeredMap "a.b..c" []).2.2 everywhere_steady_layeredMap
    _ hfail [] with ⟨p, hp, hmiss⟩ | ⟨hwhole, _⟩
  · obtain rfl := EvalError.expectedDictionary.inj hp
    exact hmiss
  · cases hwhole

end TemplateRender
