import BlockLang.Proofs.Machine.Endings

/-!
# The history of a run

A run enters and leaves frames, binds names, assigns to them and writes, one thing after the
other.  An `Event` is one of these, or the beginning of a statement, and `Machine.replay` says what
events do to a machine.

The history of a run is not a second semantics.  A `Recorded` activity is an activity together
with the events in its course, and the functions `Recorded.eval`, `Recorded.exec` and so on put the
very activities together that a run consists of (`Recorded.activity_eval` and its companions).
Their events are all that happens: replayed, they lead to the machine that the activity leaves
behind (`Recorded.replay_events`), also if it has failed or has been stopped.

What is built by recursion over programs is reasoned about by recursion over programs.
`Recorded.Compositional P` asks for a property of recorded activities only that it holds of the
single steps and passes through the ways of putting them together; it then holds of every piece of
every program.
-/

namespace BlockLang

/-- What happens in the course of a run. -/
inductive Event
  /-- A statement is begun. -/
  | begins (s : Stmt)
  /-- A frame is entered. -/
  | enter
  /-- The innermost frame is left and destroyed. -/
  | leave
  /-- A name is bound in the innermost frame. -/
  | define (name : String) (kind : BindingKind) (value : Value)
  /-- A value is assigned to a name. -/
  | assign (name : String) (value : Value) (line : Nat)
  /-- A text is given to the sink. -/
  | write (text : String)
  /-- The sink is asked to pass on what it has taken. -/
  | flush

namespace Machine

variable {σ : Type} [Sink σ]

/-- The machine behind an event.  An assignment that is refused changes nothing. -/
def after (m : Machine σ) : Event → Machine σ
  | .begins _ => m
  | .enter => ⟨m.env.enter, m.out⟩
  | .leave => ⟨Environment.exit m.env, m.out⟩
  | .define name kind value => ⟨Environment.define m.env name kind value, m.out⟩
  | .assign name value line =>
    match Environment.assign m.env name value line with
    | .ok env => ⟨env, m.out⟩
    | .error _ => m
  | .write text => ⟨m.env, (Sink.write text m.out).2⟩
  | .flush => ⟨m.env, (Sink.flush m.out).2⟩

/-- The machine behind events that happen one after the other. -/
def replay (events : List Event) (m : Machine σ) : Machine σ :=
  events.foldl after m

@[simp] lemma replay_nil (m : Machine σ) : replay [] m = m :=
  rfl

@[simp] lemma replay_cons (e : Event) (events : List Event) (m : Machine σ) :
    replay (e :: events) m = replay events (m.after e) :=
  rfl

@[simp] lemma replay_append (events events' : List Event) (m : Machine σ) :
    replay (events ++ events') m = replay events' (replay events m) :=
  List.foldl_append

end Machine

/-! ## Activities with their events -/

/-- An activity, and what happens in its course when it begins with a given machine. -/
structure Recorded (σ α : Type) where
  activity : Running σ α
  events : Machine σ → List Event

namespace Recorded

open Machine

variable {σ α β : Type}

/-- An activity in whose course nothing happens. -/
def quiet (x : Running σ α) : Recorded σ α :=
  ⟨x, fun _ => []⟩

/-- An activity that is a single event. -/
def single (x : Running σ α) (e : Event) : Recorded σ α :=
  ⟨x, fun _ => [e]⟩

/-- What an activity does behind another one that is done. -/
def eventsBehind (ending : Outcome Fault α × Machine σ) (f : α → Recorded σ β) : List Event :=
  match ending with
  | (.done a, m) => (f a).events m
  | _ => []

/-- An activity and, if it is done, the one that its value asks for. -/
protected def bind (x : Recorded σ α) (f : α → Recorded σ β) : Recorded σ β where
  activity := x.activity >>= fun a => (f a).activity
  events m := x.events m ++ eventsBehind (x.activity.run m) f

instance : Monad (Recorded σ) where
  pure a := quiet (pure a)
  bind := Recorded.bind

/-- An activity in a frame of its own, which is left if the activity comes to an end. -/
def inFrame (x : Recorded σ α) : Recorded σ α where
  activity := Machine.inFrame x.activity
  events m := .enter :: (x.events ⟨m.env.enter, m.out⟩ ++
    if (x.activity.run ⟨m.env.enter, m.out⟩).1.isFinished then [.leave] else [])

/-- The repetitions of a loop, at most so many. -/
def iterate (test body : Recorded σ Bool) : Nat → Recorded σ Unit
  | 0 => quiet Attempt.stop
  | steps + 1 => do
    if ← test then
      if ← body then iterate test body steps else return ()
    else return ()

/-- A statement is begun. -/
def begins (s : Stmt) : Recorded σ Unit :=
  single (pure ()) (.begins s)

def define (name : Ident) (kind : BindingKind) (value : Value) : Recorded σ Unit :=
  single (Machine.define name kind value) (.define name.name kind value)

def assign (target : Ident) (value : Value) (line : Nat) : Recorded σ Unit :=
  single (Machine.assign target value line) (.assign target.name value line)

variable [Sink σ]

def print (value : Value) : Recorded σ Unit :=
  single (Machine.print value) (.write value.printed)

def flush : Recorded σ Unit :=
  single (output Sink.flush) .flush

/-! ## Programs with their events -/

mutual

/-- The value of an expression. -/
def eval (bound : Nat) : Expr → Recorded σ Value
  | .literal value => pure (.ofLiteral value)
  | .name ident => quiet (lookup ident)
  | .unary op operand line => do
    let value ← eval bound operand
    quiet (Attempt.ofExcept (value.applyUnary op line))
  | .binary op left right line => do
    let leftValue ← eval bound left
    let rightValue ← eval bound right
    quiet (Attempt.ofExcept (leftValue.applyBinary op rightValue line))
  | .block body line => inFrame (evalBody bound line body)

/-- The value of the last statement of a block expression, behind the others. -/
def evalBody (bound : Nat) (line : Nat) : List Stmt → Recorded σ Value
  | [] => quiet (Attempt.fail (.noValue "block" line))
  | [last] =>
    match last with
    | .expr value => do
      begins (.expr value)
      eval bound value
    | _ => quiet (Attempt.fail (.noValue "block" line))
  | first :: rest => do
    begins first
    let flow ← exec bound first
    if flow = .normal then evalBody bound line rest
    else quiet (Attempt.fail (.noValue "block" line))

/-- A statement, behind its beginning. -/
def exec (bound : Nat) : Stmt → Recorded σ Flow
  | .constDef name _ value _ => do
    let value ← eval bound value
    define name .const value
    return .normal
  | .varDef name _ value _ => do
    let value ← eval bound value
    define name .var value
    return .normal
  | .varDecl name ty _ => do
    let value ← quiet (Attempt.ofExcept (initial name ty))
    define name .var value
    return .normal
  | .assign target value line => do
    let value ← eval bound value
    assign target value line
    return .normal
  | .print value _ => do
    let value ← eval bound value
    print value
    return .normal
  | .ifElse test thenBlock elseBlock line => do
    let value ← eval bound test
    let holds ← quiet (truth "if" line value)
    if holds then inFrame (execAll bound thenBlock) else inFrame (execAll bound elseBlock)
  | .whileLoop test body line => do
    iterate
      (do
        let value ← eval bound test
        quiet (truth "while" line value))
      (do
        let flow ← inFrame (execAll bound body)
        return flow ≠ .broken)
      bound
    return .normal
  | .breakLoop _ => return .broken
  | .continueLoop _ => return .continued
  | .expr value => do
    let _ ← eval bound value
    return .normal

/-- Statements up to the first one that does not end normally. -/
def execAll (bound : Nat) : List Stmt → Recorded σ Flow
  | [] => return .normal
  | first :: rest => do
    begins first
    let flow ← exec bound first
    if flow = .normal then execAll bound rest else return flow

end

/-- The statements of a program and the flush behind them. -/
def run (bound : Nat) (program : Program) : Recorded σ Unit := do
  let _ ← execAll bound program.body
  flush

/-! ## The activities are those of a run -/

omit [Sink σ] in
@[simp] lemma activity_bind (x : Recorded σ α) (f : α → Recorded σ β) :
    (x >>= f).activity = x.activity >>= fun a => (f a).activity :=
  rfl

omit [Sink σ] in
@[simp] lemma activity_pure (a : α) : (pure a : Recorded σ α).activity = pure a :=
  rfl

omit [Sink σ] in
lemma activity_ite {p : Prop} [Decidable p] (x y : Recorded σ α) :
    (if p then x else y).activity = if p then x.activity else y.activity :=
  apply_ite activity p x y

/-! ## What is put together, by how its first part ends -/

section Parts

omit [Sink σ]

variable {x : Recorded σ α} {f : α → Recorded σ β} {m m' : Machine σ}

lemma bind_of_done {a : α} (hrun : x.activity.run m = (.done a, m')) :
    (x >>= f).activity.run m = (f a).activity.run m' ∧
      (x >>= f).events m = x.events m ++ (f a).events m' := by
  have hevents : (x >>= f).events m = x.events m ++ eventsBehind (x.activity.run m) f := rfl
  rw [activity_bind, Attempt.run_bind, hevents, hrun]
  exact ⟨rfl, rfl⟩

/-- An activity that is not done is the last one. -/
lemma bind_of_not_done {outcome : Outcome Fault α} (hrun : x.activity.run m = (outcome, m'))
    (hstop : ¬ ∃ a, outcome = .done a) :
    (x >>= f).activity.run m = (outcome >>= fun _ => .unfinished, m') ∧
      (x >>= f).events m = x.events m := by
  have hevents : (x >>= f).events m = x.events m ++ eventsBehind (x.activity.run m) f := rfl
  rw [activity_bind, Attempt.run_bind, hevents, hrun]
  cases outcome with
  | done a => exact absurd ⟨a, rfl⟩ hstop
  | failed fault => exact ⟨rfl, List.append_nil _⟩
  | unfinished => exact ⟨rfl, List.append_nil _⟩

/-- A frame is left however the activity in it comes to an end; if the activity is stopped, it is
not. -/
lemma inFrame_of_run {outcome : Outcome Fault α}
    (hrun : x.activity.run ⟨m.env.enter, m.out⟩ = (outcome, m')) :
    (inFrame x).activity.run m =
        (outcome, ⟨if outcome.isFinished then Environment.exit m'.env else m'.env, m'.out⟩) ∧
      (inFrame x).events m = .enter :: (x.events ⟨m.env.enter, m.out⟩ ++
        if outcome.isFinished then [.leave] else []) := by
  refine ⟨run_inFrame hrun, ?_⟩
  simp only [inFrame, hrun]

end Parts

omit [Sink σ] in
lemma activity_iterate (test body : Recorded σ Bool) (steps : Nat) :
    (iterate test body steps).activity =
      Attempt.iterate test.activity body.activity steps := by
  induction steps with
  | zero => rfl
  | succ steps ih =>
    funext m
    simp only [iterate, activity_bind, activity_ite, ih, activity_pure]
    change Attempt.run _ m = _
    rw [Attempt.run_bind, Attempt.iterate, Attempt.run]
    obtain ⟨outcome, m₁⟩ := test.activity m
    cases outcome with
    | failed fault => rfl
    | unfinished => rfl
    | done holds =>
      cases holds with
      | false => rfl
      | true =>
        simp only [if_true, Attempt.run_bind]
        rw [Attempt.run]
        obtain ⟨outcome', m₂⟩ := body.activity m₁
        cases outcome' with
        | failed fault => rfl
        | unfinished => rfl
        | done again => cases again <;> rfl

mutual

theorem activity_eval (bound : Nat) : ∀ e : Expr,
    (eval bound e : Recorded σ Value).activity = Machine.eval bound e
  | .literal value => by
    rw [eval, Machine.eval]
    rfl
  | .name ident => by
    rw [eval, Machine.eval]
    rfl
  | .unary op operand line => by
    rw [eval, Machine.eval, activity_bind, activity_eval bound operand]
    rfl
  | .binary op left right line => by
    simp only [eval, Machine.eval, activity_bind, activity_eval bound left,
      activity_eval bound right]
    rfl
  | .block body line => by
    rw [eval, Machine.eval, inFrame, activity_evalBody bound line body]

theorem activity_evalBody (bound line : Nat) : ∀ body : List Stmt,
    (evalBody bound line body : Recorded σ Value).activity = Machine.evalBody bound line body
  | [] => by
    rw [evalBody, Machine.evalBody]
    rfl
  | [last] => by
    cases last with
    | expr value =>
      rw [evalBody, Machine.evalBody, ← activity_eval bound value]
      rfl
    | _ =>
      rw [evalBody, Machine.evalBody]
      · rfl
      · exact nofun
      · exact nofun
  | first :: second :: rest => by
    have hfirst := activity_exec bound first
    have hrest := activity_evalBody bound line (second :: rest)
    rw [evalBody, Machine.evalBody, ← hfirst, ← hrest]
    · simp only [activity_bind, activity_ite]
      rfl
    · exact nofun
    · exact nofun

theorem activity_exec (bound : Nat) : ∀ s : Stmt,
    (exec bound s : Recorded σ Flow).activity = Machine.exec bound s
  | .constDef name ty value line | .varDef name ty value line => by
    rw [exec, Machine.exec, activity_bind, activity_eval bound value]
    rfl
  | .varDecl name ty line => by
    rw [exec, Machine.exec]
    rfl
  | .assign target value line => by
    rw [exec, Machine.exec, activity_bind, activity_eval bound value]
    rfl
  | .print value line => by
    rw [exec, Machine.exec, activity_bind, activity_eval bound value]
    rfl
  | .ifElse test thenBlock elseBlock line => by
    simp only [exec, Machine.exec, activity_bind, activity_ite, inFrame, activity_eval bound test,
      activity_execAll bound thenBlock, activity_execAll bound elseBlock]
    rfl
  | .whileLoop test body line => by
    simp only [exec, Machine.exec, activity_bind, activity_iterate, inFrame,
      activity_eval bound test, activity_execAll bound body]
    rfl
  | .breakLoop line | .continueLoop line => by
    rw [exec, Machine.exec]
    rfl
  | .expr value => by
    rw [exec, Machine.exec, activity_bind, activity_eval bound value]
    rfl

theorem activity_execAll (bound : Nat) : ∀ body : List Stmt,
    (execAll bound body : Recorded σ Flow).activity = Machine.execAll bound body
  | [] => by
    rw [execAll, Machine.execAll]
    rfl
  | first :: rest => by
    have hfirst := activity_exec bound first
    have hrest := activity_execAll bound rest
    rw [execAll, Machine.execAll, ← hfirst, ← hrest]
    simp only [activity_bind, activity_ite]
    rfl

end

lemma activity_run (bound : Nat) (program : Program) (out : σ) :
    (run bound program).activity.run ⟨.root, out⟩ =
      (Machine.run bound program).run ⟨.root, out⟩ := by
  rw [run, activity_bind, activity_execAll]
  rfl

/-! ## What holds of every piece of a program -/

/-- A property that the single steps of a run have, and that passes through the ways in which
activities are put together. -/
structure Compositional (P : ∀ α : Type, Recorded σ α → Prop) : Prop where
  pure {α : Type} (a : α) : P α (pure a)
  fail {α : Type} (fault : Fault) : P α (quiet (Attempt.fail fault))
  stop {α : Type} : P α (quiet Attempt.stop)
  bind {α β : Type} {x : Recorded σ α} {f : α → Recorded σ β} (first : P α x)
    (behind : ∀ a, P β (f a)) : P β (x >>= f)
  inFrame {α : Type} {x : Recorded σ α} (inside : P α x) : P α (inFrame x)
  begins (s : Stmt) : P Unit (begins s)
  lookup (ident : Ident) : P Value (quiet (Machine.lookup ident))
  define (name : Ident) (kind : BindingKind) (value : Value) : P Unit (define name kind value)
  assign (target : Ident) (value : Value) (line : Nat) : P Unit (assign target value line)
  print (value : Value) : P Unit (print value)

namespace Compositional

variable {P : ∀ α : Type, Recorded σ α → Prop} (hP : Compositional P)

include hP

lemma ofExcept (result : Except Fault α) : P α (quiet (Attempt.ofExcept result)) := by
  cases result with
  | ok a => exact hP.pure a
  | error fault => exact hP.fail fault

lemma truth (construct : String) (line : Nat) (value : Value) :
    P Bool (quiet (Machine.truth construct line value)) := by
  cases value with
  | bool holds => exact hP.pure holds
  | _ => exact hP.fail _

lemma iterate {test body : Recorded σ Bool} (htest : P Bool test) (hbody : P Bool body)
    (steps : Nat) : P Unit (iterate test body steps) := by
  induction steps with
  | zero => exact hP.stop
  | succ steps ih =>
    refine hP.bind htest fun holds => ?_
    cases holds with
    | false => exact hP.pure ()
    | true =>
      refine hP.bind hbody fun again => ?_
      cases again with
      | false => exact hP.pure ()
      | true => exact ih

mutual

theorem eval (bound : Nat) : ∀ e : Expr, P Value (Recorded.eval bound e)
  | .literal value => by
    rw [Recorded.eval]
    exact hP.pure _
  | .name ident => by
    rw [Recorded.eval]
    exact hP.lookup ident
  | .unary op operand line => by
    rw [Recorded.eval]
    exact hP.bind (eval bound operand) fun v => hP.ofExcept _
  | .binary op left right line => by
    rw [Recorded.eval]
    refine hP.bind (eval bound left) fun v => ?_
    exact hP.bind (eval bound right) fun v' => hP.ofExcept _
  | .block body line => by
    rw [Recorded.eval]
    exact hP.inFrame (evalBody bound line body)

theorem evalBody (bound line : Nat) : ∀ body : List Stmt,
    P Value (Recorded.evalBody bound line body)
  | [] => by
    rw [Recorded.evalBody]
    exact hP.fail _
  | [last] => by
    cases last with
    | expr value =>
      rw [Recorded.evalBody]
      exact hP.bind (hP.begins _) fun _ => eval bound value
    | _ =>
      rw [Recorded.evalBody]
      · exact hP.fail _
      · exact nofun
  | first :: second :: rest => by
    rw [Recorded.evalBody]
    · refine hP.bind (hP.begins first) fun _ => hP.bind (exec bound first) fun flow => ?_
      split
      · exact evalBody bound line (second :: rest)
      · exact hP.fail _
    · exact nofun

theorem exec (bound : Nat) : ∀ s : Stmt, P Flow (Recorded.exec bound s)
  | .constDef name ty value line | .varDef name ty value line => by
    rw [Recorded.exec]
    refine hP.bind (eval bound value) fun v => ?_
    exact hP.bind (hP.define name _ v) fun _ => hP.pure _
  | .varDecl name ty line => by
    rw [Recorded.exec]
    refine hP.bind (hP.ofExcept _) fun v => ?_
    exact hP.bind (hP.define name .var v) fun _ => hP.pure _
  | .assign target value line => by
    rw [Recorded.exec]
    refine hP.bind (eval bound value) fun v => ?_
    exact hP.bind (hP.assign target v line) fun _ => hP.pure _
  | .print value line => by
    rw [Recorded.exec]
    refine hP.bind (eval bound value) fun v => ?_
    exact hP.bind (hP.print v) fun _ => hP.pure _
  | .ifElse test thenBlock elseBlock line => by
    rw [Recorded.exec]
    refine hP.bind (eval bound test) fun v => hP.bind (hP.truth "if" line v) fun holds => ?_
    split
    · exact hP.inFrame (execAll bound thenBlock)
    · exact hP.inFrame (execAll bound elseBlock)
  | .whileLoop test body line => by
    rw [Recorded.exec]
    have htest : P Bool (do
        let value ← Recorded.eval bound test
        quiet (Machine.truth "while" line value)) :=
      hP.bind (eval bound test) fun v => hP.truth "while" line v
    have hbody : P Bool (do
        let flow ← Recorded.inFrame (Recorded.execAll bound body)
        return flow ≠ .broken) :=
      hP.bind (hP.inFrame (execAll bound body)) fun _ => hP.pure _
    exact hP.bind (hP.iterate htest hbody bound) fun _ => hP.pure _
  | .breakLoop line | .continueLoop line => by
    rw [Recorded.exec]
    exact hP.pure _
  | .expr value => by
    rw [Recorded.exec]
    exact hP.bind (eval bound value) fun _ => hP.pure _

theorem execAll (bound : Nat) : ∀ body : List Stmt, P Flow (Recorded.execAll bound body)
  | [] => by
    rw [Recorded.execAll]
    exact hP.pure _
  | first :: rest => by
    rw [Recorded.execAll]
    refine hP.bind (hP.begins first) fun _ => hP.bind (exec bound first) fun flow => ?_
    split
    · exact execAll bound rest
    · exact hP.pure _

end

/-- What the flush at the end has too, whole programs have. -/
theorem run (hflush : P Unit flush) (bound : Nat) (program : Program) :
    P Unit (Recorded.run bound program) :=
  hP.bind (hP.execAll bound program.body) fun _ => hflush

end Compositional

/-! ## The events are all that happens -/

/-- Replayed, the events of an activity lead to the machine that it leaves behind. -/
def Replays (x : Recorded σ α) : Prop :=
  ∀ m : Machine σ, replay (x.events m) m = (x.activity.run m).2

lemma Replays.bind {x : Recorded σ α} {f : α → Recorded σ β} (first : Replays x)
    (behind : ∀ a, Replays (f a)) : Replays (x >>= f) := by
  intro m
  show replay (x.events m ++ eventsBehind (x.activity.run m) f) m = _
  rw [replay_append, first m, activity_bind, Attempt.run_bind]
  rcases x.activity.run m with ⟨_ | _ | _, m₁⟩
  · exact behind _ m₁
  · rfl
  · rfl

lemma Replays.inFrame {x : Recorded σ α} (inside : Replays x) : Replays (inFrame x) := by
  intro m
  obtain ⟨outcome, m', hrun⟩ : ∃ outcome m',
    x.activity.run ⟨m.env.enter, m.out⟩ = (outcome, m') := ⟨_, _, rfl⟩
  obtain ⟨hactivity, hevents⟩ := inFrame_of_run hrun
  have hinside : replay (x.events ⟨m.env.enter, m.out⟩) (m.after .enter) = m' := by
    rw [Machine.after, inside, hrun]
  rw [hactivity, hevents, replay_cons, replay_append, hinside]
  cases outcome <;> rfl

lemma replays_output (operation : σ → Option String × σ) (e : Event)
    (h : ∀ m : Machine σ, m.after e = ⟨m.env, (operation m.out).2⟩) :
    Replays (single (output operation) e) := by
  intro m
  show m.after e = ((output operation) m).2
  rw [h m, output]
  rcases operation m.out with ⟨_ | _, out⟩ <;> rfl

lemma compositional_replays : Compositional (fun _ (x : Recorded σ _) => Replays x) where
  pure _ _ := rfl
  fail _ _ := rfl
  stop _ := rfl
  bind := .bind
  inFrame := .inFrame
  begins _ _ := rfl
  lookup ident m := by
    show m = (Machine.lookup ident m).2
    rw [Machine.lookup]
    split <;> rfl
  define _ _ _ _ := rfl
  assign target value line m := by
    show m.after (.assign target.name value line) = (Machine.assign target value line m).2
    rw [Machine.after, Machine.assign]
    cases Environment.assign m.env target.name value line <;> rfl
  print value := replays_output (Sink.write value.printed) _ fun _ => rfl

/-- Replayed, the events of a run lead to the machine that the run leaves behind, also if it has
failed or has been stopped. -/
theorem replay_events (bound : Nat) (program : Program) (out : σ) :
    replay ((run bound program).events ⟨.root, out⟩) ⟨.root, out⟩ =
      ((Machine.run bound program).run ⟨.root, out⟩).2 := by
  have hreplays : Replays (run bound program : Recorded σ Unit) :=
    compositional_replays.run (replays_output Sink.flush _ fun _ => rfl) bound program
  rw [hreplays, activity_run]

end Recorded

/-- All that happens when a program is run on a sink, in order. -/
def Program.history {σ : Type} [Sink σ] (bound : Nat) (program : Program) (out : σ) :
    List Event :=
  (Recorded.run bound program).events ⟨.root, out⟩

end BlockLang
