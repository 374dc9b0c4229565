import TemplateRender.Proofs.Entries
import TemplateRender.Proofs.Output

/-!
What a template means, put together from what its parts mean. The meaning of a body over a context
is a program for its text: the texts of its nodes one after another, up to the first error. No
output and no cursor is mentioned, and tags that have nodes rendered are answered with what these
mean. Main statement: rendering comes to the meaning (`render_eq_meaning`). The invariant behind it
is that a writing adds the text of a program to the output and never looks at what the output holds
(`OutputM.Adds`).
-/
namespace TemplateRender

/-- The text that a value stands for. Without a text it stands for nothing, or is an error. -/
def RenderEnv.textOf (env : RenderEnv) (v : Value) : RenderM String := do
  match ← RenderM.ofRun (v.outputText? env.format), env.policy with
  | some text, _ => return text
  | none, .strict => throw (.serializationFailed v.typeName)
  | none, .bestEffort => return ""

/-- What an iteration binds on top of the enclosing context. -/
def Loop.bindings (item : String) (count index : Nat) (v : Value) : Entries Value :=
  [(item, v), ("isFirst", .bool (index == 0)), ("isLast", .bool (index + 1 == count)),
    ("index", toValue index)]

mutual

def Node.meaning (env : RenderEnv) : Node → Context → RenderM String
  | .raw text, _ => return text
  | .expression params, data => do env.textOf (← env.atomic params data)
  | .conditional chain, data => Clause.meaning env chain data
  | .loop item path body, data => do
    let items ← RenderM.ofEval (data.loopItems path)
    let texts ← items.zipIdx.mapM fun (v, index) =>
      Node.meaningAll env body (Entries.override (Loop.bindings item items.length index v) data)
    return String.join texts
  | .custom call, data => do env.textOf (← call.invoke data)
  | .importDirective key, _ => throw (.unresolvedDirective (directiveText "import" key))
  | .extendDirective key _, _ => throw (.unresolvedDirective (directiveText "extend" key))
  | .exportDirective (.mk key _), _ => throw (.unresolvedDirective (directiveText "export" key))

def Node.meaningAll (env : RenderEnv) : List Node → Context → RenderM String
  | [], _ => return ""
  | node :: rest, data => do
    let text ← node.meaning env data
    return text ++ (← Node.meaningAll env rest data)

def Clause.meaning (env : RenderEnv) : List Clause → Context → RenderM String
  | [], _ => return ""
  | .mk condition body :: rest, data => do
    let v ← env.atomic condition data
    if ← RenderM.ofRun v.isTruthy then Node.meaningAll env body data
    else Clause.meaning env rest data

end

/-- What a request means. -/
def RenderEnv.meaning (env : RenderEnv) : (request : Request) → RenderM request.Result
  | .render nodes data => Node.meaningAll env nodes data
  | .resolve params data => env.resolver env.view params data
  | .invoke tag call => env.tags.invoke tag (env.tagContext call)

namespace OutputM

variable {α : Type}

/-- Whatever the output holds, the writing adds the text of the program to it, and fails where the
program fails. -/
def Adds (x : OutputM Unit) (m : RenderM String) : Prop :=
  ∀ output, x.onto output = m >>= fun text => pure ((), output ++ text)

namespace Adds

theorem nothing : Adds (pure ()) (pure "") := by
  intro output
  rw [pure_bind, String.append_empty]
  rfl

theorem throw (e : EvalError) : Adds (throw e) (throw e) := fun _ => rfl

theorem write (text : String) : Adds (write text) (pure text) := by
  intro output
  rw [pure_bind]
  rfl

theorem seq {x y : OutputM Unit} {m n : RenderM String} (hx : Adds x m) (hy : Adds y n) :
    Adds (x >>= fun _ => y) (m >>= fun text => n >>= fun more => pure (text ++ more)) := by
  intro output
  simp only [onto_bind, hx output, bind_assoc, pure_bind, hy _, String.append_assoc]

theorem ofRender {x : RenderM α} {f : α → OutputM Unit} {g : α → RenderM String}
    (h : ∀ a, Adds (f a) (g a)) : Adds (ofRender x >>= f) (x >>= g) := by
  intro output
  simp only [onto_bind, onto_ofRender, bind_assoc, pure_bind, h _ output]

theorem collect_eq {x : OutputM Unit} {m : RenderM String} (h : Adds x m) : collect x = m := by
  simp only [collect_eq_onto, h "", bind_assoc, pure_bind, String.empty_append, bind_pure]

end Adds

end OutputM

open OutputM

theorem adds_emit (env : RenderEnv) (v : Value) : Adds (env.emit v) (env.textOf v) := by
  intro output
  rw [onto_emit, RenderEnv.textOf, bind_assoc]
  refine bind_congr fun text? => ?_
  cases text? with
  | some text => rw [pure_bind]
  | none =>
    cases env.policy with
    | strict => rfl
    | bestEffort => rw [pure_bind, String.append_empty]

theorem adds_each (text : Nat → Value → RenderM String) (items : List Value) (index : Nat) :
    Adds (Loop.each text index items)
      ((items.zipIdx index).mapM (fun pair => text pair.2 pair.1) >>= fun texts =>
        pure (String.join texts)) := by
  induction items generalizing index with
  | nil => exact .nothing
  | cons v rest ih =>
    have hiteration : ∀ written, Adds
        (write written >>= fun _ => Loop.each text (index + 1) rest) _ :=
      fun written => (Adds.write written).seq (ih (index + 1))
    have hall := Adds.ofRender (x := text index v) hiteration
    rw [Loop.each]
    simpa only [List.zipIdx_cons, List.mapM_cons, bind_assoc, pure_bind, String.join_cons]
      using hall

-- The two recursions are the same on syntax, and each writing adds what its node means.
mutual

theorem Node.adds_render (env : RenderEnv) : ∀ (node : Node) (data : Context),
    Adds (node.render env data) (node.meaning env data)
  | .raw text, _ => by
    rw [Node.render, Node.meaning]
    exact .write text
  | .expression params, data => by
    rw [Node.render, Node.meaning]
    exact .ofRender fun v => adds_emit env v
  | .conditional chain, data => by
    rw [Node.render, Node.meaning]
    exact Clause.adds_renderFirst env chain data
  | .loop item path body, data => by
    rw [Node.render, Node.meaning]
    refine .ofRender fun items => ?_
    have hbody : ∀ scope, (Node.renderAll env body scope).collect =
        Node.meaningAll env body scope :=
      fun scope => (Node.adds_renderAll env body scope).collect_eq
    simp only [hbody]
    exact adds_each _ items 0
  | .custom call, data => by
    rw [Node.render, Node.meaning]
    exact .ofRender fun v => adds_emit env v
  | .importDirective key, _ => by
    rw [Node.render, Node.meaning]
    exact .throw _
  | .extendDirective key _, _ => by
    rw [Node.render, Node.meaning]
    exact .throw _
  | .exportDirective (.mk key _), _ => by
    rw [Node.render, Node.meaning]
    exact .throw _

theorem Node.adds_renderAll (env : RenderEnv) : ∀ (nodes : List Node) (data : Context),
    Adds (Node.renderAll env nodes data) (Node.meaningAll env nodes data)
  | [], _ => by
    rw [Node.renderAll, Node.meaningAll]
    exact .nothing
  | node :: rest, data => by
    rw [Node.renderAll, Node.meaningAll]
    exact (Node.adds_render env node data).seq (Node.adds_renderAll env rest data)

theorem Clause.adds_renderFirst (env : RenderEnv) : ∀ (chain : List Clause) (data : Context),
    Adds (Clause.renderFirst env chain data) (Clause.meaning env chain data)
  | [], _ => by
    rw [Clause.renderFirst, Clause.meaning]
    exact .nothing
  | .mk condition body :: rest, data => by
    rw [Clause.renderFirst, Clause.meaning]
    refine .ofRender fun v => .ofRender fun holds => ?_
    by_cases hholds : holds = true
    · rw [if_pos hholds, if_pos hholds]
      exact Node.adds_renderAll env body data
    · rw [if_neg hholds, if_neg hholds]
      exact Clause.adds_renderFirst env rest data

end

/-- The meaning of one body after another is their meanings one after another. -/
theorem Node.meaningAll_append (env : RenderEnv) (xs ys : List Node) (data : Context) :
    Node.meaningAll env (xs ++ ys) data = do
      let text ← Node.meaningAll env xs data
      let more ← Node.meaningAll env ys data
      return text ++ more := by
  induction xs with
  | nil => simp only [List.nil_append, Node.meaningAll, pure_bind, String.empty_append, bind_pure]
  | cons node xs ih =>
    simp only [List.cons_append, Node.meaningAll, ih, bind_assoc, pure_bind, String.append_assoc]

theorem RenderEnv.answer_eq_meaning (env : RenderEnv) : env.answer = env.meaning := by
  funext request
  cases request with
  | render nodes data =>
    exact (env.answer_render nodes data).trans (Node.adds_renderAll env nodes data).collect_eq
  | resolve params data => rfl
  | invoke tag call => rfl

/-- Rendering a body gives its meaning, with the same events on the way, whatever an earlier render
has left behind; and the meaning of one body after another is their meanings one after another. -/
theorem render_eq_meaning (renderer : Renderer) (userInfo : UserInfo) (data : Context) :
    let env : RenderEnv := { renderer, userInfo }
    (∀ nodes, renderer.render nodes data userInfo =
      (Node.meaningAll env nodes data).perform env.meaning) ∧
      (∀ nodes offset output,
        Prod.fst <$> Evaluator.render { nodes, data, env, offset, output } =
          ((Node.meaningAll env nodes data).perform env.meaning).run) ∧
      ∀ xs ys, Node.meaningAll env (xs ++ ys) data = do
        let text ← Node.meaningAll env xs data
        let more ← Node.meaningAll env ys data
        return text ++ more := by
  intro env
  have hrender : ∀ nodes,
      (Node.renderAll env nodes data).collect = Node.meaningAll env nodes data :=
    fun nodes => (Node.adds_renderAll env nodes data).collect_eq
  refine ⟨fun nodes => ?_, fun nodes offset output => ?_, fun xs ys => ?_⟩
  · rw [Renderer.render_eq_perform, hrender, ← RenderEnv.answer_eq_meaning]
    rfl
  · rw [Evaluator.fst_render, Evaluator.text_eq_collect, hrender, ← RenderEnv.answer_eq_meaning]
    rfl
  · exact Node.meaningAll_append env xs ys data

end TemplateRender
