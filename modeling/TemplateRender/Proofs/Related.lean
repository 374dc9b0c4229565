import Mathlib.Data.List.Forall2
import TemplateRender.Proofs.Simulation

/-!
Relations between the values of two renders that no step of a render breaks. A relation need only
hold between equal scalars and between maps with related entries, and forcing related values has to
open up related contents (`Value.Indistinct`). Look-ups, the scopes and the elements of loops,
parameters, conditions and writing then keep related what was related.
-/
namespace TemplateRender

/-- The same names, in the same order, bound to related values. -/
def Context.Related (rel : Value → Value → Prop) : Context → Context → Prop :=
  List.Forall₂ fun p q => p.1 = q.1 ∧ rel p.2 q.2

/-- What two related values come to when they are forced. -/
inductive Value.Opened (rel : Value → Value → Prop) : Value → Value → Prop where
  | bool (b : Bool) : Opened rel (bool b) (bool b)
  | int (n : Int64) : Opened rel (int n) (int n)
  | double (d : Double) : Opened rel (double d) (double d)
  | str (text : String) : Opened rel (str text) (str text)
  | bytes (data : List UInt8) : Opened rel (bytes data) (bytes data)
  | nil (declared : ValueType) : Opened rel (nil declared) (nil declared)
  | array {xs ys : List Value} : List.Forall₂ rel xs ys → Opened rel (array xs) (array ys)
  | map {xs ys : Entries Value} : Context.Related rel xs ys → Opened rel (map xs) (map ys)

/-- The relation holds between values that a render makes alike, and forcing keeps it. -/
structure Value.Indistinct (P : Pairing) (rel : Value → Value → Prop) : Prop where
  bool (b : Bool) : rel (.bool b) (.bool b)
  int (n : Int64) : rel (.int n) (.int n)
  double (d : Double) : rel (.double d) (.double d)
  str (text : String) : rel (.str text) (.str text)
  nil (declared : ValueType) : rel (.nil declared) (.nil declared)
  map {xs ys : Entries Value} : Context.Related rel xs ys → rel (.map xs) (.map ys)
  forced {v w : Value} : rel v w → RunM.Paired P (Value.Opened rel) v.forced w.forced

namespace Context.Related

variable {rel : Value → Value → Prop} {d d' : Context}

theorem get? (h : Context.Related rel d d') (key : String) :
    (Entries.get? d key = none ∧ Entries.get? d' key = none) ∨
      ∃ v w, Entries.get? d key = some v ∧ Entries.get? d' key = some w ∧ rel v w := by
  induction h with
  | nil => exact Or.inl ⟨rfl, rfl⟩
  | @cons p q _ _ hhead _ ih =>
    obtain ⟨k, v⟩ := p
    obtain ⟨_, w⟩ := q
    obtain ⟨rfl, hv⟩ := hhead
    rw [Entries.get?_cons, Entries.get?_cons]
    split
    · exact Or.inr ⟨v, w, rfl, rfl, hv⟩
    · exact ih

theorem insert (h : Context.Related rel d d') (key : String) {v w : Value} (hv : rel v w) :
    Context.Related rel (Entries.insert key v d) (Entries.insert key w d') := by
  induction h with
  | nil => exact .cons ⟨rfl, hv⟩ .nil
  | @cons p q _ _ hhead htail ih =>
    obtain ⟨k, x⟩ := p
    obtain ⟨_, y⟩ := q
    obtain ⟨rfl, hx⟩ := hhead
    rw [Entries.insert, Entries.insert]
    split
    · exact .cons ⟨rfl, hv⟩ htail
    · exact .cons ⟨rfl, hx⟩ ih

end Context.Related

namespace Value

section Texts

variable {P : Pairing} {format : FormatConfig}

theorem paired_itemTexts {xs ys : List Value}
    (h : List.Forall₂ (fun x y => RunM.Paired P Eq (x.text? format) (y.text? format)) xs ys) :
    RunM.Paired P Eq (itemTexts format xs) (itemTexts format ys) := by
  induction h with
  | nil => exact .pure rfl
  | cons hhead _ ih =>
    exact .bind_eq hhead fun _ => .bind_eq ih fun _ => .pure rfl

theorem paired_entryTexts {xs ys : Entries Value}
    (h : List.Forall₂ (fun p q => p.1 = q.1 ∧
      RunM.Paired P Eq (p.2.text? format) (q.2.text? format)) xs ys) :
    RunM.Paired P Eq (entryTexts format xs) (entryTexts format ys) := by
  induction h with
  | nil => exact .pure rfl
  | @cons p q _ _ hhead _ ih =>
    obtain ⟨key, v⟩ := p
    obtain ⟨_, w⟩ := q
    obtain ⟨rfl, hv⟩ := hhead
    exact .bind_eq hv fun _ => .bind_eq ih fun _ => .pure rfl

end Texts

end Value

/-- A value is written alike where it has the same text and reports the same type. -/
theorem paired_emit_of_text {D : Dialogue} (env : RenderEnv) {v w : Value}
    (htype : v.typeName = w.typeName)
    (htext : RunM.Paired D.toPairing Eq (v.outputText? env.format) (w.outputText? env.format)) :
    OutputM.Paired D Eq (env.emit v) (env.emit w) := by
  intro output
  rw [OutputM.onto_emit, OutputM.onto_emit, htype]
  refine .bind_eq (.ofRun htext) fun text? => ?_
  cases text? with
  | some text => exact .pure ⟨rfl, rfl⟩
  | none =>
    cases env.policy with
    | strict => exact .throw _
    | bestEffort => exact .pure ⟨rfl, rfl⟩

namespace Value.Indistinct

variable {P : Pairing} {rel : Value → Value → Prop} {d d' : Context}
  {asked : Correspondence}

section Steps

variable (R : Value.Indistinct P rel)
include R

theorem scope (h : Context.Related rel d d') (item : String) (count index : Nat) {v w : Value}
    (hv : rel v w) :
    Context.Related rel (Loop.scope d item count index v) (Loop.scope d' item count index w) :=
  (((h.insert item hv).insert "isFirst" (R.bool _)).insert "isLast" (R.bool _)).insert "index"
    (R.int _)

theorem isTruthy {v w : Value} (h : rel v w) : RunM.Paired P Eq v.isTruthy w.isTruthy := by
  refine .bind (R.forced h) fun settled settled' hsettled => ?_
  cases hsettled <;> exact .pure rfl

theorem descend (segments : List String) {v w : Value} (h : rel v w) :
    RunM.Paired P rel (Path.descend segments v) (Path.descend segments w) := by
  induction segments generalizing v w with
  | nil => exact .pure h
  | cons segment rest ih =>
    refine .bind (R.forced h) fun settled settled' hsettled => ?_
    cases hsettled with
    | map hentries =>
      rcases hentries.get? segment with ⟨hd, hd'⟩ | ⟨next, next', hd, hd', hnext⟩
      · simp only [hd, hd']
        exact .pure (R.nil _)
      · simp only [hd, hd']
        exact ih hnext
    | _ => exact .pure (R.nil _)

theorem lookup (h : Context.Related rel d d') (path : String) :
    RunM.Paired P rel (d.lookup path) (d'.lookup path) := by
  unfold Context.lookup
  rcases h.get? (Path.first path) with ⟨hd, hd'⟩ | ⟨v, w, hd, hd', hv⟩
  · rw [hd, hd']
    exact .pure (R.nil _)
  · rw [hd, hd']
    exact R.descend _ hv

theorem forced? (h : Context.Related rel d d') (key : String) :
    RunM.Paired P (Option.Rel (Value.Opened rel)) (d.forced? key) (d'.forced? key) := by
  unfold Context.forced?
  rcases h.get? key with ⟨hd, hd'⟩ | ⟨v, w, hd, hd', hv⟩
  · rw [hd, hd']
    exact .pure .none
  · rw [hd, hd']
    exact .bind (R.forced hv) fun _ _ hsettled => .pure (.some hsettled)

theorem itemsFrom (path : String) (rest : List String) (h : Context.Related rel d d')
    (walked : List String) (segment : String) :
    RenderM.Paired ⟨P, asked⟩ (List.Forall₂ rel)
      (.ofEval (Path.itemsFrom path d walked segment rest))
      (.ofEval (Path.itemsFrom path d' walked segment rest)) := by
  induction rest generalizing d d' walked segment with
  | nil =>
    rw [Path.itemsFrom, Path.itemsFrom, RenderM.ofEval_bind, RenderM.ofEval_bind]
    refine .bind (.ofRun (R.forced? h segment)) fun found found' hrel => ?_
    cases hrel with
    | none => exact .throw _
    | some hsettled =>
      cases hsettled with
      | array hitems => exact .pure hitems
      | _ => exact .throw _
  | cons next rest ih =>
    rw [Path.itemsFrom, Path.itemsFrom, RenderM.ofEval_bind, RenderM.ofEval_bind]
    refine .bind (.ofRun (R.forced? h segment)) fun found found' hrel => ?_
    cases hrel with
    | none => exact .throw _
    | some hsettled =>
      cases hsettled with
      | map hentries => exact ih hentries _ next
      | _ => exact .throw _

theorem loopItems (h : Context.Related rel d d') (path : String) :
    RenderM.Paired ⟨P, asked⟩ (List.Forall₂ rel) (.ofEval (d.loopItems path))
      (.ofEval (d'.loopItems path)) :=
  R.itemsFrom path _ h [] _

theorem atom (h : Context.Related rel d d') (a : Atom) :
    RunM.Paired P rel (a.resolve d) (a.resolve d') := by
  cases a with
  | constant c =>
    cases c with
    | int n => exact .pure (R.int n)
    | double x => exact .pure (R.double x)
  | text s => exact .pure (R.str s)
  | keyword word =>
    cases word with
    | trueWord => exact .pure (R.bool true)
    | falseWord => exact .pure (R.bool false)
    | nilWord => exact .pure (R.nil _)
    | selfWord => exact .pure (R.map h)
  | path p => exact R.lookup h p

end Steps

end Value.Indistinct

/-- Contexts that bind the same names to related values, whatever a template mentions. -/
def Likeness.ofRelated (P : Pairing) (rel parameter : Value → Value → Prop)
    (hparameter : ∀ {v w : Value}, rel v w → parameter v w) : Likeness where
  toPairing := P
  data _ := Context.Related rel
  value := rel
  parameter := parameter
  weaken _ h := h
  asParameter := hparameter

namespace Value.Indistinct

variable {P : Pairing} {rel parameter : Value → Value → Prop}

theorem atoms (R : Value.Indistinct P rel)
    (hparameter : ∀ {v w : Value}, rel v w → parameter v w) :
    (Likeness.ofRelated P rel parameter hparameter).Atoms := fun a _ _ h => R.atom h a

/-- A render does not tell apart contexts that no step of it tells apart. -/
def simulation (R : Value.Indistinct P rel)
    (hparameter : ∀ {v w : Value}, rel v w → parameter v w) {env : RenderEnv}
    (hemit : ∀ {v w : Value}, rel v w →
      OutputM.Paired (Likeness.ofRelated P rel parameter hparameter).dialogue Eq (env.emit v)
        (env.emit w))
    (hresolve : ∀ (params : List Param) {d d' : Context}, Context.Related rel d d' →
      RenderM.Paired (Likeness.ofRelated P rel parameter hparameter).dialogue (List.Forall₂ rel)
        (env.resolver env.view params d) (env.resolver env.view params d'))
    (htag : ∀ name tag, env.tags.get? name = some tag → ∀ {call call' : Invocation},
      Invocation.Alike (Likeness.ofRelated P rel parameter hparameter) call call' →
      RenderM.Paired (Likeness.ofRelated P rel parameter hparameter).dialogue rel
        (tag (env.tagContext call)) (tag (env.tagContext call'))) :
    Simulation env env where
  toLikeness := .ofRelated P rel parameter hparameter
  element := rel
  nil := R.nil _
  tags := rfl
  resolve := hresolve
  tag := htag
  isTruthy := R.isTruthy
  emit := hemit
  items path _ _ _ h := R.loopItems h path
  scope item count index _ _ _ _ _ h hv := R.scope h item count index hv

end Value.Indistinct

end TemplateRender
