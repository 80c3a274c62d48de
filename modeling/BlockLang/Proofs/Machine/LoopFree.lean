import BlockLang.Proofs.Machine.History
import BlockLang.Proofs.Program.Everywhere
import BlockLang.Proofs.Program.Listing

/-!
# Programs without loops

Only a loop makes a run come back to a place where it has been.  A program without loops comes to
an end on every sink, even if no repetition of a loop is allowed at all, and it begins its
statements in the order in which they are written, each at most once (`Program.loopFree_ends`).
Some are never begun: those in the branch that is not taken, and those behind the end of a run that
fails.

`Recorded.Once listed owed x` is what is carried through the tree: the activity `x` comes to an end,
the statements that are begun in its course are some of those `listed`, in their order, and it
writes no more often than `print`s are begun, but for the `owed` ones that were begun before.  There
is one lemma for each way in which activities are put together.
-/

namespace BlockLang

/-! ## What is counted -/

/-- There is no loop in the program. -/
def NodeCondition.loopFree : NodeCondition where
  onStmt
    | .whileLoop _ _ _ => False
    | _ => True
  onExpr _ := True

/-- A program without loops, at any depth. -/
def Program.LoopFree (program : Program) : Prop :=
  program.Everywhere .loopFree

/-- The statement prints. -/
def Stmt.isPrint : Stmt → Bool
  | .print _ _ => true
  | _ => false

namespace Event

/-- The statement that is begun. -/
def begun? : Event → Option Stmt
  | begins s => some s
  | _ => none

/-- A text is given to the sink. -/
def isWrite : Event → Bool
  | write _ => true
  | _ => false

/-- The statements that are begun, in order. -/
def begun (events : List Event) : List Stmt :=
  events.filterMap begun?

lemma begun_append (events events' : List Event) :
    begun (events ++ events') = begun events ++ begun events' :=
  List.filterMap_append

end Event

namespace Recorded

open Machine

variable {σ α β : Type}

/-- The activity comes to an end.  The statements that it begins are among the `listed` ones, each
at most as often as it is listed and in that order, and besides the `owed` times it writes at most
once for each `print` that it begins. -/
structure Once (listed : List Stmt) (owed : Nat) (x : Recorded σ α) : Prop where
  finishes : ∀ m, (x.activity.run m).1.isFinished = true
  begun : ∀ m, (Event.begun (x.events m)).Sublist listed
  written : ∀ m, (x.events m).countP Event.isWrite ≤
    (Event.begun (x.events m)).countP Stmt.isPrint + owed

variable {x : Recorded σ α} {f : α → Recorded σ β} {listed listed' : List Stmt}
  {owed owed' : Nat}

/-- More statements may be listed. -/
lemma Once.mono (h : Once listed owed x) (hlisted : listed.Sublist listed') :
    Once listed' owed x where
  finishes := h.finishes
  begun m := (h.begun m).trans hlisted
  written := h.written

/-! ## Ways to put activities together -/

lemma once_quiet {x : Running σ α} (h : ∀ m, (x.run m).1.isFinished = true) :
    Once listed owed (quiet x) where
  finishes := h
  begun _ := List.nil_sublist listed
  written _ := Nat.zero_le _

lemma once_pure (a : α) : Once listed owed (pure a : Recorded σ α) :=
  once_quiet fun _ => rfl

lemma once_fail (fault : Fault) : Once listed owed (quiet (Attempt.fail fault : Running σ α)) :=
  once_quiet fun _ => rfl

lemma once_ofExcept (result : Except Fault α) :
    Once listed owed (quiet (Attempt.ofExcept result : Running σ α)) :=
  once_quiet fun _ => by cases result <;> rfl

/-- A single event that neither begins a statement nor writes. -/
lemma once_single {x : Running σ α} {e : Event} (h : ∀ m, (x.run m).1.isFinished = true)
    (hbegun : e.begun? = none) (hwrite : e.isWrite = false) :
    Once listed owed (single x e) where
  finishes := h
  begun _ := by
    show ([e].filterMap Event.begun?).Sublist listed
    rw [List.filterMap_cons_none hbegun]
    exact List.nil_sublist listed
  written _ := by
    show [e].countP Event.isWrite ≤ _
    rw [List.countP_singleton, hwrite]
    exact Nat.zero_le _

/-- Of two activities one behind the other the second one begins what is listed behind. -/
lemma Once.bind_owing (first : Once listed owed x) (behind : ∀ a, Once listed' owed' (f a)) :
    Once (listed ++ listed') (owed + owed') (x >>= f) := by
  have hparts : ∀ m, ((x >>= f).activity.run m).1.isFinished = true ∧
      (Event.begun ((x >>= f).events m)).Sublist (listed ++ listed') ∧
      ((x >>= f).events m).countP Event.isWrite ≤
        (Event.begun ((x >>= f).events m)).countP Stmt.isPrint + (owed + owed') := by
    intro m
    obtain ⟨outcome, m', hrun⟩ : ∃ outcome m', x.activity.run m = (outcome, m') := ⟨_, _, rfl⟩
    have hfinished := first.finishes m
    have hbegun := first.begun m
    have hwritten := first.written m
    rw [hrun] at hfinished
    cases outcome with
    | unfinished => cases hfinished
    | failed fault =>
      obtain ⟨hactivity, hevents⟩ := bind_of_not_done (f := f) hrun nofun
      rw [hactivity, hevents]
      exact ⟨rfl, hbegun.trans (List.sublist_append_left _ _), by omega⟩
    | done a =>
      obtain ⟨hactivity, hevents⟩ := bind_of_done (f := f) hrun
      have hwritten' := (behind a).written m'
      rw [hactivity, hevents, Event.begun_append, List.countP_append, List.countP_append]
      refine ⟨(behind a).finishes m', hbegun.append ((behind a).begun m'), ?_⟩
      omega
  exact ⟨fun m => (hparts m).1, fun m => (hparts m).2.1, fun m => (hparts m).2.2⟩

lemma Once.bind (first : Once listed owed x) (behind : ∀ a, Once listed' 0 (f a)) :
    Once (listed ++ listed') owed (x >>= f) :=
  first.bind_owing behind

/-- What follows begins nothing. -/
lemma Once.bind_quietly (first : Once listed owed x) (behind : ∀ a, Once [] 0 (f a)) :
    Once listed owed (x >>= f) := by
  have h := first.bind behind
  rwa [List.append_nil] at h

/-- What is owed by a statement is written behind its beginning. -/
lemma Once.behind_beginning {s : Stmt} (h : Once listed s.isPrint.toNat x) :
    Once (s :: listed) 0 (begins s >>= fun _ => x) where
  finishes := h.finishes
  begun m := (h.begun m).cons_cons s
  written m := by
    have hwritten := h.written m
    show (x.events m).countP Event.isWrite ≤
      (s :: Event.begun (x.events m)).countP Stmt.isPrint + 0
    rw [List.countP_cons]
    cases hs : s.isPrint <;> rw [hs] at hwritten <;> simpa using hwritten

lemma Once.inFrame (inside : Once listed owed x) : Once listed owed (inFrame x) := by
  have hparts : ∀ m, ((Recorded.inFrame x).activity.run m).1.isFinished = true ∧
      Event.begun ((Recorded.inFrame x).events m) =
        Event.begun (x.events ⟨m.env.enter, m.out⟩) ∧
      ((Recorded.inFrame x).events m).countP Event.isWrite =
        (x.events ⟨m.env.enter, m.out⟩).countP Event.isWrite := by
    intro m
    obtain ⟨outcome, m', hrun⟩ : ∃ outcome m',
      x.activity.run ⟨m.env.enter, m.out⟩ = (outcome, m') := ⟨_, _, rfl⟩
    have hfinished := inside.finishes ⟨m.env.enter, m.out⟩
    rw [hrun] at hfinished
    obtain ⟨hactivity, hevents⟩ := inFrame_of_run hrun
    rw [if_pos hfinished] at hevents
    rw [hactivity, hevents]
    refine ⟨hfinished, ?_, ?_⟩
    · show Event.begun (_ ++ [.leave]) = _
      rw [Event.begun_append]
      exact List.append_nil _
    · rw [List.countP_cons_of_neg Bool.false_ne_true, List.countP_append]
      rfl
  refine ⟨fun m => (hparts m).1, fun m => ?_, fun m => ?_⟩
  · rw [(hparts m).2.1]
    exact inside.begun _
  · rw [(hparts m).2.1, (hparts m).2.2]
    exact inside.written _

/-! ## Single steps -/

lemma once_lookup (ident : Ident) : Once listed owed (quiet (lookup ident) : Recorded σ Value) :=
  once_quiet fun m => by
    rw [Attempt.run, lookup]
    split <;> rfl

lemma once_truth (construct : String) (line : Nat) (value : Value) :
    Once listed owed (quiet (truth construct line value) : Recorded σ Bool) :=
  once_quiet fun _ => by cases value <;> rfl

lemma once_define (name : Ident) (kind : BindingKind) (value : Value) :
    Once listed owed (define name kind value : Recorded σ Unit) :=
  once_single (fun _ => rfl) rfl rfl

lemma once_assign (target : Ident) (value : Value) (line : Nat) :
    Once listed owed (assign target value line : Recorded σ Unit) := by
  refine once_single (fun m => ?_) rfl rfl
  rw [Attempt.run, Machine.assign]
  split <;> rfl

lemma finishes_output (operation : σ → Option String × σ) (m : Machine σ) :
    ((output operation).run m).1.isFinished = true := by
  rw [Attempt.run, output]
  split <;> rfl

variable [Sink σ]

lemma once_print (value : Value) : Once [] 1 (print value : Recorded σ Unit) where
  finishes := finishes_output _
  begun _ := List.Sublist.refl []
  written _ := Nat.le_refl 1

lemma once_flush : Once [] 0 (flush : Recorded σ Unit) :=
  once_single (finishes_output _) rfl rfl

/-! ## Programs -/

mutual

theorem eval_once (bound : Nat) : ∀ {e : Expr}, e.Everywhere .loopFree →
    Once e.statements 0 (eval bound e : Recorded σ Value)
  | .literal value, _ => by
    rw [eval]
    exact once_pure _
  | .name ident, _ => by
    rw [eval]
    exact once_lookup ident
  | .unary op operand line, h => by
    rw [eval]
    exact (eval_once bound h.2).bind_quietly fun v => once_ofExcept _
  | .binary op left right line, h => by
    rw [eval]
    exact (eval_once bound h.2.1).bind fun v =>
      (eval_once bound h.2.2).bind_quietly fun v' => once_ofExcept _
  | .block body line, h => by
    rw [eval]
    exact (evalBody_once bound line h.2).inFrame

theorem evalBody_once (bound line : Nat) : ∀ {body : List Stmt}, Stmt.AllEverywhere .loopFree body →
    Once (Stmt.listed body) 0 (evalBody bound line body : Recorded σ Value)
  | [], _ => by
    rw [evalBody]
    exact once_fail _
  | [last], h => by
    cases last with
    | expr value =>
      rw [evalBody, Stmt.listed, Stmt.inner, Stmt.listed, List.append_nil]
      exact Once.behind_beginning (eval_once bound h.1.2)
    | _ =>
      rw [evalBody]
      · exact once_fail _
      · exact nofun
  | first :: second :: rest, h => by
    rw [evalBody]
    · refine ((exec_once bound h.1).bind fun flow => ?_).behind_beginning
      split
      · exact evalBody_once bound line h.2
      · exact once_fail _
    · exact nofun

theorem exec_once (bound : Nat) : ∀ {s : Stmt}, s.Everywhere .loopFree →
    Once s.inner s.isPrint.toNat (exec bound s : Recorded σ Flow)
  | .constDef name ty value line, h | .varDef name ty value line, h => by
    rw [exec]
    refine (eval_once bound h.2).bind_quietly fun v => ?_
    exact (once_define name _ v).bind_quietly fun _ => once_pure _
  | .varDecl name ty line, _ => by
    rw [exec]
    refine (once_ofExcept _).bind_quietly fun v => ?_
    exact (once_define name .var v).bind_quietly fun _ => once_pure _
  | .assign target value line, h => by
    rw [exec]
    refine (eval_once bound h.2).bind_quietly fun v => ?_
    exact (once_assign target v line).bind_quietly fun _ => once_pure _
  | .print value line, h => by
    rw [exec]
    have hprint := (eval_once bound h.2).bind_owing fun v : Value =>
      (once_print v).bind_quietly fun _ => once_pure Flow.normal
    rwa [List.append_nil] at hprint
  | .ifElse test thenBlock elseBlock line, h => by
    rw [exec]
    refine (eval_once bound h.2.1).bind fun v => ?_
    have htruth : Once [] 0 (quiet (truth "if" line v) : Recorded σ Bool) := once_truth "if" line v
    refine htruth.bind fun holds => ?_
    split
    · exact (execAll_once bound h.2.2.1).inFrame.mono (List.sublist_append_left _ _)
    · exact (execAll_once bound h.2.2.2).inFrame.mono (List.sublist_append_right _ _)
  | .whileLoop _ _ _, h => h.1.elim
  | .breakLoop line, _ | .continueLoop line, _ => by
    rw [exec]
    exact once_pure _
  | .expr value, h => by
    rw [exec]
    exact (eval_once bound h.2).bind_quietly fun _ => once_pure _

theorem execAll_once (bound : Nat) : ∀ {body : List Stmt}, Stmt.AllEverywhere .loopFree body →
    Once (Stmt.listed body) 0 (execAll bound body : Recorded σ Flow)
  | [], _ => by
    rw [execAll]
    exact once_pure _
  | first :: rest, h => by
    rw [execAll]
    refine ((exec_once bound h.1).bind fun flow => ?_).behind_beginning
    split
    · exact execAll_once bound h.2
    · exact once_pure _

end

lemma run_once {program : Program} (loopFree : program.LoopFree) (bound : Nat) :
    Once program.statements 0 (run bound program : Recorded σ Unit) :=
  (execAll_once bound loopFree).bind_quietly fun _ => once_flush

end Recorded

namespace Program

variable {program : Program}

/-- A program without loops comes to an end on every sink.  The statements that it begins are some
of its statements, each at most as often as it is written and in that order.  So it begins at most
as many `print`s as there are in the program, and it writes at most once for each of them; besides
what is in its history, nothing is done to the sink. -/
theorem loopFree_ends (loopFree : program.LoopFree) {σ : Type} [Sink σ] (bound : Nat) (out : σ) :
    (program.run bound out).1.isFinished = true ∧
    (program.run bound out).2 = (Machine.replay (program.history bound out) ⟨.root, out⟩).out ∧
    (Event.begun (program.history bound out)).Sublist program.statements ∧
    (program.history bound out).countP Event.isWrite ≤
      (Event.begun (program.history bound out)).countP Stmt.isPrint ∧
    (Event.begun (program.history bound out)).countP Stmt.isPrint ≤
      program.total (.counting Stmt.isPrint) := by
  have once := Recorded.run_once (σ := σ) loopFree bound
  have hfinished := once.finishes ⟨.root, out⟩
  have hbegun := once.begun ⟨.root, out⟩
  rw [Recorded.activity_run] at hfinished
  have hreplay := congrArg Machine.out (Recorded.replay_events bound program out)
  refine ⟨hfinished, hreplay.symm, hbegun, once.written ⟨.root, out⟩, ?_⟩
  rw [← program.countP_statements]
  exact hbegun.countP_le

/-- Five `print`s, in block expressions, in a condition and in branches, on a sink that takes seven
bytes: four of them are begun, and the last one of these is refused. -/
theorem loopFree_ends_refused :
    ∃ program : Program, program.LoopFree ∧
      (program.run 0 (Buffer.bounded 7)).1 =
        .failed (.outputFailed "failed to write whole buffer") ∧
      (program.run 0 (Buffer.bounded 7)).1.isFinished = true ∧
      (program.history 0 (Buffer.bounded 7)).countP Event.isWrite = 4 ∧
      4 ≤ program.total (.counting Stmt.isPrint) := by
  have loopFree : (⟨[
      .print (.block [.print (.literal (.int 1 1)) 1, .expr (.literal (.int 2 1))] 1) 1,
      .ifElse (.block [.print (.literal (.int 3 2)) 2, .expr (.literal (.bool true 2))] 2)
        [.print (.literal (.int 4 2)) 2] [.print (.literal (.int 5 3)) 3] 2]⟩ :
        Program).LoopFree := by
    simp [LoopFree, Everywhere, Stmt.AllEverywhere, Stmt.Everywhere, Expr.Everywhere,
      NodeCondition.loopFree]
  obtain ⟨hfinished, -, -, hwrites, hbegun⟩ := loopFree_ends loopFree 0 (Buffer.bounded 7)
  refine ⟨_, loopFree, rfl, hfinished, rfl, Nat.le_trans (Nat.le_of_eq ?_)
    (Nat.le_trans hwrites hbegun)⟩
  rfl

end Program

end BlockLang
