import TemplateRender.Render.Output
import TemplateRender.Render.Renderer
import TemplateRender.Syntax.Text
import TemplateRender.Value.Conversion

/-!
The render pass. Nodes are rendered front to back and write to one output. The body of a clause
writes to the output of its conditional, while loop and tag bodies write to outputs of their own
whose text is then added. A loop body sees the context with the element and its position bound;
nothing that it sees outlives the iteration. Resolution errors end the render, and so do values
without a text under the strict policy.
-/
namespace TemplateRender

/-- Writes a value as the output policy demands. -/
def RenderEnv.emit (env : RenderEnv) (v : Value) : OutputM Unit :=
  OutputM.ofWrite <| match env.policy with
    | .strict => v.append env.format
    | .bestEffort => tryCatch (v.append env.format) fun _ => return ()

/-- The one value that a parameter list comes to. -/
def RenderEnv.atomic (env : RenderEnv) (params : List Param) (data : Context) : RenderM Value := do
  single (← env.resolver env.view params data)

namespace Loop

/-- The context of one iteration. The position is bound last, so it wins over an element of the
same name. -/
def scope (data : Context) (item : String) (count index : Nat) (v : Value) : Context :=
  data |> Entries.insert item v
    |> Entries.insert "isFirst" (.bool (index == 0))
    |> Entries.insert "isLast" (.bool (index + 1 == count))
    |> Entries.insert "index" (toValue index)

/-- Adds the text of each element in turn, the first of them at position `index`. -/
def each (text : Nat → Value → RenderM String) (index : Nat) : List Value → OutputM Unit
  | [] => return ()
  | v :: rest => do
    OutputM.write (← OutputM.ofRender (text index v))
    each text (index + 1) rest

end Loop

mutual

def Node.render (env : RenderEnv) : Node → Context → OutputM Unit
  | .raw text, _ => OutputM.write text
  | .expression params, data => do
    env.emit (← OutputM.ofRender (env.atomic params data))
  | .conditional chain, data => Clause.renderFirst env chain data
  | .loop item path body, data => do
    let items ← OutputM.ofRender (RenderM.ofEval (data.loopItems path))
    Loop.each (fun index v =>
      (Node.renderAll env body (Loop.scope data item items.length index v)).collect) 0 items
  | .custom call, data => do env.emit (← OutputM.ofRender (call.invoke data))
  | .importDirective key, _ => throw (.unresolvedDirective (directiveText "import" key))
  | .extendDirective key _, _ => throw (.unresolvedDirective (directiveText "extend" key))
  | .exportDirective (.mk key _), _ => throw (.unresolvedDirective (directiveText "export" key))

def Node.renderAll (env : RenderEnv) : List Node → Context → OutputM Unit
  | [], _ => return ()
  | node :: rest, data => do
    node.render env data
    Node.renderAll env rest data

/-- The body of the first clause that holds; the conditions after it are not resolved. -/
def Clause.renderFirst (env : RenderEnv) : List Clause → Context → OutputM Unit
  | [], _ => return ()
  | .mk condition body :: rest, data => do
    let v ← OutputM.ofRender (env.atomic condition data)
    if ← OutputM.ofRender (RenderM.ofRun v.isTruthy) then Node.renderAll env body data
    else Clause.renderFirst env rest data

end

theorem Node.renderAll_singleton (env : RenderEnv) (node : Node) (data : Context) :
    Node.renderAll env [node] data = node.render env data := by
  rw [Node.renderAll, Node.renderAll]
  exact bind_pure _

/-- One body after another writes to one output. -/
theorem Node.renderAll_append (env : RenderEnv) (xs ys : List Node) (data : Context) :
    Node.renderAll env (xs ++ ys) data =
      Node.renderAll env xs data >>= fun _ => Node.renderAll env ys data := by
  induction xs with
  | nil =>
    rw [List.nil_append, Node.renderAll, pure_bind]
  | cons node xs ih =>
    rw [List.cons_append, Node.renderAll, Node.renderAll, bind_assoc]
    exact bind_congr fun _ => ih

/-- A body and a context under render. The cursor is the position of the node that comes next. What
a render leaves behind stays there until the next one: a success leaves an empty output and the
cursor at the end, a failure what it had written and the cursor behind the node that failed. -/
structure Evaluator where
  nodes : List Node
  data : Context
  env : RenderEnv
  offset : Nat := 0
  output : String := ""

namespace Evaluator

/-- Renders node after node from the cursor on. The cursor passes a node before its render. -/
def resume (evaluator : Evaluator) : Program (Except EvalError Unit × Evaluator) :=
  if hlt : evaluator.offset < evaluator.nodes.length then do
    let node := evaluator.nodes[evaluator.offset]
    let (outcome, output) ← (node.render evaluator.env evaluator.data).run.run evaluator.output
    let passed := { evaluator with offset := evaluator.offset + 1, output }
    match outcome with
    | .ok () => passed.resume
    | .error e => return (.error e, passed)
  else return (.ok (), evaluator)
termination_by evaluator.nodes.length - evaluator.offset

/-- At the end of a successful render the output is handed out. -/
def finish : Except EvalError Unit × Evaluator → Except EvalError String × Evaluator
  | (.ok (), left) => (.ok left.output, { left with output := "" })
  | (.error e, left) => (.error e, left)

/-- Renders the body from its first node on, with an empty output. -/
def program (evaluator : Evaluator) : Program (Except EvalError String × Evaluator) :=
  finish <$> resume { evaluator with offset := 0, output := "" }

/-- What a render gives, apart from what it leaves behind. -/
def text (evaluator : Evaluator) : RenderM String := ExceptT.mk (Prod.fst <$> evaluator.program)

def rewound (evaluator : Evaluator) : Evaluator := { evaluator with offset := 0 }

/-- What is rendered from the cursor on are the nodes that stand there and behind it. -/
theorem resume_rewound (evaluator : Evaluator) :
    Prod.map id rewound <$> evaluator.resume =
      Prod.map id (fun output => { evaluator.rewound with output }) <$>
        (Node.renderAll evaluator.env (evaluator.nodes.drop evaluator.offset)
          evaluator.data).run.run evaluator.output := by
  -- By induction on the way that the cursor has still to go.
  induction hn : evaluator.nodes.length - evaluator.offset generalizing evaluator with
  | zero =>
    have hend : evaluator.nodes.length ≤ evaluator.offset := Nat.sub_eq_zero_iff_le.1 hn
    rw [resume, dif_neg (Nat.not_lt.2 hend), List.drop_eq_nil_of_le hend, Node.renderAll]
    rfl
  | succ n ih =>
    have hlt : evaluator.offset < evaluator.nodes.length := by omega
    rw [resume, dif_pos hlt, List.drop_eq_getElem_cons hlt, Node.renderAll, OutputM.run_bind,
      map_bind, map_bind]
    refine bind_congr fun (outcome, output) => ?_
    cases outcome with
    | error e => rfl
    | ok =>
      have hleft : evaluator.nodes.length - (evaluator.offset + 1) = n := by omega
      exact ih { evaluator with offset := evaluator.offset + 1, output } hleft

/-- Where the last render has left the cursor and what it has left in the output play no part. -/
theorem program_rewound (evaluator : Evaluator) :
    Prod.map id rewound <$> evaluator.program =
      (fun (outcome, output) => finish (outcome, { evaluator.rewound with output })) <$>
        (Node.renderAll evaluator.env evaluator.nodes evaluator.data).run.run "" := by
  have hresume := resume_rewound { evaluator with offset := 0, output := "" }
  have hfinish : ∀ left, Prod.map id rewound (finish left) = finish (Prod.map id rewound left) := by
    rintro ⟨_ | _, left⟩ <;> rfl
  rw [List.drop_zero] at hresume
  rw [program, Functor.map_map]
  simp only [hfinish]
  rw [← Functor.map_map (Prod.map id rewound) finish, hresume, Functor.map_map]
  rfl

/-- The text or the error of a render is that of its nodes written to an empty output. -/
theorem text_eq_collect (evaluator : Evaluator) :
    evaluator.text = (Node.renderAll evaluator.env evaluator.nodes evaluator.data).collect := by
  have hprogram := congrArg (Prod.fst <$> ·) evaluator.program_rewound
  simp only [Functor.map_map] at hprogram
  refine Eq.trans hprogram (congrArg (· <$> _) (funext fun (outcome, output) => ?_))
  cases outcome <;> rfl

end Evaluator

namespace RenderEnv

/-- What a request comes to under this configuration. -/
def answer (env : RenderEnv) : (request : Request) → RenderM request.Result
  | .render nodes data => Evaluator.text { nodes, data, env }
  | .resolve params data => env.resolver env.view params data
  | .invoke tag call => env.tags.invoke tag (env.tagContext call)

theorem answer_render (env : RenderEnv) (nodes : List Node) (data : Context) :
    env.answer (.render nodes data) = (Node.renderAll env nodes data).collect :=
  Evaluator.text_eq_collect { nodes, data, env }

/-- Carries out a computation of this render, with all that it asks for. -/
def perform {α : Type} (env : RenderEnv) (x : RenderM α) : PerformM α := x.perform env.answer

@[simp] theorem perform_pure {α : Type} (env : RenderEnv) (a : α) :
    env.perform (pure a) = pure a := RenderM.perform_pure a

theorem perform_bind {α β : Type} (env : RenderEnv) (x : RenderM α) (f : α → RenderM β) :
    env.perform (x >>= f) = env.perform x >>= fun a => env.perform (f a) := RenderM.perform_bind x f

theorem perform_resolve (env : RenderEnv) (params : List Param) (data : Context) :
    env.perform (RenderM.resolve params data) = env.perform (env.resolver env.view params data) :=
  RenderM.perform_ask (.resolve params data)

theorem perform_invoke (env : RenderEnv) (tag : String) (call : Invocation) :
    env.perform (RenderM.invoke tag call) =
      env.perform (env.tags.invoke tag (env.tagContext call)) :=
  RenderM.perform_ask (.invoke tag call)

end RenderEnv

/-- Renders the body anew and leaves behind how far it came. -/
def Evaluator.render (evaluator : Evaluator) : PartialM (Except EvalError String × Evaluator) :=
  evaluator.program.perform evaluator.env.answer

theorem Evaluator.fst_render (evaluator : Evaluator) :
    Prod.fst <$> evaluator.render = (evaluator.env.perform evaluator.text).run :=
  (Program.perform_map Prod.fst evaluator.program).symm

/-- Renders a body once. -/
def Renderer.render (renderer : Renderer) (nodes : List Node) (data : Context)
    (userInfo : UserInfo) : PerformM String :=
  ExceptT.mk (Prod.fst <$> Evaluator.render { nodes, data, env := { renderer, userInfo } })

theorem Renderer.render_eq_perform (renderer : Renderer) (nodes : List Node) (data : Context)
    (userInfo : UserInfo) :
    let env : RenderEnv := { renderer, userInfo }
    renderer.render nodes data userInfo = env.perform (Node.renderAll env nodes data).collect := by
  intro env
  rw [← Evaluator.text_eq_collect { nodes, data, env }]
  exact Evaluator.fst_render { nodes, data, env }

end TemplateRender
