import TemplateRender.Format.Serialize
import TemplateRender.Proofs.Equated

/-!
What output sees of equal values. Where lazy values keep their answers and never answer with
another lazy value, the text of a value and whether it counts as true are those of the bare value
(`sameText_bare`, `isTruthy_bare`), and structurally equal values without layers have one text
whatever the order of their keys (`sameText_of_same`). Main statement: equal values have the same
text in every format and count alike in conditions (`output_eq_of_equal`). Only the two zeros,
which are equal but have different signs, have to be left out.
-/
namespace TemplateRender

/-- No bit is set in a zero without a sign. -/
theorem Double.toNat_bits_eq_zero {d : Double} (hzero : d.isZero = true)
    (hsign : ¬d.isNegative = true) : d.bits.toNat = 0 := by
  have hlt := d.bits.toNat_lt
  have hsign : ¬2 ^ 63 ≤ d.bits.toNat := fun h => hsign (decide_eq_true h)
  have hfields : d.bits.toNat / 2 ^ 52 % 2048 = 0 ∧ d.bits.toNat % 2 ^ 52 = 0 := by
    simpa [isZero, exponentField, fraction, unitBit] using hzero
  omega

theorem Double.eq_of_equal {x y : Double} (h : x.equal y = true)
    (hx : ¬(x.isZero = true ∧ x.isNegative = true))
    (hy : ¬(y.isZero = true ∧ y.isNegative = true)) : x = y := by
  simp only [equal, Bool.and_eq_true, Bool.or_eq_true, beq_iff_eq] at h
  rcases h.2 with heq | ⟨hzerox, hzeroy⟩
  · exact heq
  · have hleft := toNat_bits_eq_zero hzerox fun hsign => hx ⟨hzerox, hsign⟩
    have hright := toNat_bits_eq_zero hzeroy fun hsign => hy ⟨hzeroy, hsign⟩
    have hbits : x.bits = y.bits := UInt64.toNat_inj.1 (hleft.trans hright.symm)
    cases x
    cases y
    exact congrArg Double.mk hbits

namespace Value

variable {format : FormatConfig}

/-- The values have the same text, or both none, whatever ran before. -/
def SameText (format : FormatConfig) (a b : Value) : Prop :=
  ∀ before after, (a.text? format before).1 = (b.text? format after).1

theorem itemTexts_eq {xs ys : List Value} (hlength : xs.length = ys.length)
    (h : ∀ (i : Nat) (x y : Value), xs[i]? = some x → ys[i]? = some y → SameText format x y)
    (before after : History) : (itemTexts format xs before).1 = (itemTexts format ys after).1 := by
  induction xs generalizing ys before after with
  | nil =>
    obtain rfl : ys = [] := List.length_eq_zero_iff.1 hlength.symm
    rfl
  | cons x xs ih =>
    cases ys with
    | nil => simp at hlength
    | cons y ys =>
      have hhead := h 0 x y rfl rfl before after
      have htail := ih (Nat.succ.inj hlength) (fun i => h (i + 1)) (x.text? format before).2
        (y.text? format after).2
      simp only [itemTexts, RunM.bind_apply, RunM.pure_apply, hhead, htail]

theorem keys_entryTexts (entries : Entries Value) (history : History) :
    Entries.keys (entryTexts format entries history).1 = Entries.keys entries := by
  induction entries generalizing history with
  | nil => rfl
  | cons pair rest ih => exact congrArg (pair.1 :: ·) (ih _)

theorem get?_entryTexts (format : FormatConfig) (entries : Entries Value) (key : String)
    (history : History) :
    ∃ before, Entries.get? (entryTexts format entries history).1 key =
      (Entries.get? entries key).map fun v =>
        (v.text? format before).1.getD format.formatters.nil := by
  induction entries generalizing history with
  | nil => exact ⟨history, rfl⟩
  | cons pair rest ih =>
    obtain ⟨k, v⟩ := pair
    simp only [entryTexts, RunM.bind_apply, RunM.pure_apply, Entries.get?_cons]
    split
    · exact ⟨history, rfl⟩
    · exact ih _

theorem sorted_entryTexts_eq {xs ys : Entries Value} (hx : Entries.Distinct xs)
    (hy : Entries.Distinct ys) (hkeys : Entries.SameKeys xs ys)
    (h : ∀ key x y, Entries.get? xs key = some x → Entries.get? ys key = some y →
      SameText format x y) (before after : History) :
    Entries.sorted (entryTexts format xs before).1 =
      Entries.sorted (entryTexts format ys after).1 := by
  apply Entries.Distinct.sorted_eq
  · rwa [Entries.Distinct, keys_entryTexts]
  · rwa [Entries.Distinct, keys_entryTexts]
  intro key
  obtain ⟨before', hleft⟩ := get?_entryTexts format xs key before
  obtain ⟨after', hright⟩ := get?_entryTexts format ys key after
  rw [hleft, hright]
  cases hgetx : Entries.get? xs key with
  | none =>
    have hgety : Entries.get? ys key = none := by simpa [hgetx] using hkeys key
    rw [hgety]
    rfl
  | some x =>
    obtain ⟨y, hgety⟩ := hkeys.exists_get? hgetx
    rw [hgety, Option.map_some, Option.map_some, h key x y hgetx hgety before' after']

/-- A double is not the zero with a negative sign. -/
def NotNegativeZero : Value → Prop
  | double d => ¬(d.isZero = true ∧ d.isNegative = true)
  | _ => True

/-- At one value, besides steadiness: the answer of a lazy value is no lazy value in turn, and a
double is not the negative zero. -/
structure ShownHere (v : Value) : Prop extends SteadyHere v where
  settling : Settling v
  signed : NotNegativeZero v

theorem Everywhere.ofShown {v : Value} (h : Everywhere ShownHere v) :
    Everywhere SteadyHere v := h.imp fun _ h => h.toSteadyHere

theorem contentBlind_shownHere : ContentBlind ShownHere where
  array items := ⟨contentBlind_steadyHere.array items, trivial, trivial⟩
  map hkeys h := ⟨contentBlind_steadyHere.map hkeys h.toSteadyHere, trivial, trivial⟩

theorem entryTexts_map_eq {f : Value → Value} {entries : Entries Value}
    (h : ∀ key v, (key, v) ∈ entries → SameText format v (f v)) (before after : History) :
    (entryTexts format entries before).1 =
      (entryTexts format (entries.map fun pair => (pair.1, f pair.2)) after).1 := by
  induction entries generalizing before after with
  | nil => rfl
  | cons pair rest ih =>
    have hhead := h pair.1 pair.2 (List.mem_cons_self ..) before after
    have htail := ih (fun key v hv => h key v (List.mem_cons_of_mem _ hv))
      (pair.2.text? format before).2 ((f pair.2).text? format after).2
    simp only [List.map_cons, entryTexts, RunM.bind_apply, RunM.pure_apply, hhead, htail]

theorem sameText_bare_of_settling {v : Value} (hsteady : Everywhere Steady v)
    (hsettling : Everywhere Settling v) : SameText format v v.bare := by
  induction hsteady with
  | @intro v here _ ih =>
    intro before after
    cases v with
    | array items =>
      refine congrArg (some ∘ format.formatters.array) (itemTexts_eq (by simp) ?_ before after)
      intro i x y hx hy
      rw [getElem?_bareItems, hx] at hy
      exact Option.some.inj hy ▸ ih x (.item (List.mem_of_getElem? hx)) (hsettling.of_getElem? hx)
    | map entries =>
      have htexts := entryTexts_map_eq
        (fun key v hv => ih v (.entry hv) (hsettling.entry hv)) before after
      rw [← bareEntries_eq_map] at htexts
      exact congrArg (some ∘ format.formatters.map ∘ Entries.sorted) htexts
    | present inner declared => exact ih inner (.inner inner declared) hsettling.inner before after
    | lazy task compute =>
      rw [text?_lazy task (hsettling.here before), bare, here [] before]
      exact ih (compute before) (.result task compute before) (hsettling.result before) _ after
    | _ => rfl

theorem sameText_bare {v : Value} (h : Everywhere ShownHere v) : SameText format v v.bare :=
  sameText_bare_of_settling h.ofShown.steady (h.imp fun _ h => h.settling)

/-- Structurally equal values without layers have one text, whatever the order of their keys. -/
theorem sameText_of_same {a b : Value} (h : Same a b) (ha : Everywhere ShownHere a)
    (hb : Everywhere ShownHere b) : SameText format a b := by
  induction h with
  | double hequal =>
    rw [Double.eq_of_equal hequal ha.here.signed hb.here.signed]
    exact fun _ _ => rfl
  | array hlength _ ih =>
    intro before after
    refine congrArg (some ∘ format.formatters.array) (itemTexts_eq hlength ?_ before after)
    exact fun i x y hx hy => ih i x y hx hy (ha.of_getElem? hx) (hb.of_getElem? hy)
  | map hkeys _ ih =>
    intro before after
    refine congrArg (some ∘ format.formatters.map)
      (sorted_entryTexts_eq ha.here.distinct hb.here.distinct hkeys ?_ before after)
    exact fun key x y hx hy => ih key x y hx hy (ha.of_get? hx) (hb.of_get? hy)
  | _ => exact fun _ _ => rfl

theorem isTruthy_bare {v : Value} (h : Everywhere Steady v) (before after : History) :
    (v.isTruthy before).1 = (v.bare.isTruthy after).1 := by
  induction h generalizing before with
  | @intro v here _ ih =>
    cases v with
    | present inner declared => exact ih inner (.inner inner declared) before
    | lazy task compute =>
      rw [bare, here [] before]
      exact ih (compute before) (.result task compute before) (.ran task :: before)
    | _ => rfl

theorem isTruthy_of_same {a b : Value} (h : Same a b) (before after : History) :
    (a.isTruthy before).1 = (b.isTruthy after).1 := by
  cases h with
  | _ => rfl

/-- Equal values count alike in conditions and have the same text in every format. -/
theorem output_eq_of_equal {a b : Value} (ha : Everywhere ShownHere a)
    (hb : Everywhere ShownHere b) {history : History} (h : (a.equal b history).1 = true) :
    (∀ before after, (a.isTruthy before).1 = (b.isTruthy after).1) ∧
      ∀ (format : FormatConfig) (before after : History),
        (a.text? format before).1 = (b.text? format after).1 := by
  have hequated := (equal_iff_equated ha.ofShown hb.ofShown history).1 h
  have hsame := hequated.same_bare ha.ofShown hb.ofShown
  constructor
  · intro before after
    calc (a.isTruthy before).1 = (a.bare.isTruthy []).1 := isTruthy_bare ha.ofShown.steady _ _
      _ = (b.bare.isTruthy []).1 := isTruthy_of_same hsame _ _
      _ = (b.isTruthy after).1 := (isTruthy_bare hb.ofShown.steady _ _).symm
  · intro format before after
    calc (a.text? format before).1 = (a.bare.text? format []).1 := sameText_bare ha _ _
      _ = (b.bare.text? format []).1 :=
        sameText_of_same hsame (ha.bare contentBlind_shownHere) (hb.bare contentBlind_shownHere) _ _
      _ = (b.text? format after).1 := (sameText_bare hb _ _).symm

/-- The text of bytes that are no text is that of nil inside a map, on both sides. -/
theorem output_eq_of_equal_map : Everywhere ShownHere miscastMap ∧
    Everywhere ShownHere turnedMap ∧ (miscastMap.equal turnedMap []).1 = true ∧
    (miscastMap.isTruthy []).1 = (turnedMap.isTruthy []).1 ∧
    (miscastMap.text? {} []).1 = (turnedMap.text? {} []).1 := by
  have hmiscast : Everywhere ShownHere miscastMap :=
    everywhere_miscastMap ⟨⟨fun _ _ => rfl, trivial⟩, fun _ => rfl, trivial⟩
      ⟨⟨trivial, distinct_mixedEntries⟩, trivial, trivial⟩ ⟨⟨trivial, trivial⟩, trivial, trivial⟩
      ⟨⟨trivial, trivial⟩, trivial, trivial⟩ ⟨⟨trivial, trivial⟩, trivial, trivial⟩
  have hturned : Everywhere ShownHere turnedMap :=
    everywhere_turnedMap ⟨⟨trivial, trivial⟩, trivial, trivial⟩
      ⟨⟨trivial, distinct_turnedEntries⟩, trivial, trivial⟩ ⟨⟨trivial, trivial⟩, trivial, trivial⟩
      ⟨⟨trivial, trivial⟩, trivial, trivial⟩
  have hequal : (miscastMap.equal turnedMap []).1 = true :=
    (equal_iff_equated hmiscast.ofShown hturned.ofShown []).2 equated_miscastMap
  obtain ⟨htruthy, htext⟩ := output_eq_of_equal hmiscast hturned hequal
  exact ⟨hmiscast, hturned, hequal, htruthy [] [], htext {} [] []⟩

end Value

end TemplateRender
