import BlockLang.Proofs.Machine.Visits

/-!
# Where a `break` and a `continue` end

A `break` or a `continue` shows as the `Flow` of what is carried out.  `Site.Ends` says with which
flow a site ends, and `Passes` which parts hand their flow on to the whole: the statements of a
list do, and the blocks of a choice, but neither the body of a loop nor that of a block expression.
A flow that is not `Flow.normal` therefore travels along `Passes` (`Passes.ends`), past everything
that is still to come.

In a well-typed program such a flow always comes to the body of a loop.  The checker counts the
loops around a statement, and where the count is not zero there is a repetition of a loop whose
body leads to the site by `Passes` alone (`Program.Visits.confined`); where it is zero, all flow is
normal (`Site.Typed.flow_eq_normal`).  What the loop does with the flow is
`Repetition.repeat_of_ends`.
-/

namespace BlockLang

open TypeChecker Machine

variable {σ : Type}

/-- A machine behind the frame that it is in. -/
def Machine.closed (m : Machine σ) : Machine σ :=
  ⟨Environment.exit m.env, m.out⟩

lemma Machine.inFrame_of_done {α : Type} {activity : Running σ α} {m m' : Machine σ} {a : α}
    (h : activity.run m.opened = (.done a, m')) :
    (inFrame activity).run m = (.done a, m'.closed) :=
  run_inFrame h

section

variable [Sink σ]

/-! ## Flow -/

/-- What is carried out ends with `flow` and leaves the machine `m` behind.  An expression has a
value and no flow. -/
def Site.Ends (bound : Nat) (site : Site σ) (flow : Flow) (m : Machine σ) : Prop :=
  match site.task with
  | .expr _ => False
  | .stmt s => (exec bound s).run site.machine = (.done flow, m)
  | .stmts body => (execAll bound body).run site.machine = (.done flow, m)

/-- Whether there is a flow, as there is of everything but expressions. -/
def Task.HasFlow : Task → Prop
  | .expr _ => False
  | _ => True

/-- Only what is not an expression ends with a flow. -/
lemma Site.Ends.hasFlow {bound : Nat} {site : Site σ} {flow : Flow} {m : Machine σ}
    (h : site.Ends bound flow m) : site.task.HasFlow := by
  obtain ⟨task, c, m₀⟩ := site
  cases task with
  | expr e => exact h
  | stmt s => trivial
  | stmts body => trivial

/-- A loop ends normally. -/
lemma Site.Ends.ne_whileLoop {bound : Nat} {site : Site σ} {flow : Flow} {m : Machine σ}
    (h : site.Ends bound flow m) (hflow : flow ≠ .normal) {test : Expr} {body : List Stmt}
    {line : Nat} : site.task ≠ .stmt (.whileLoop test body line) := by
  intro htask
  rw [Site.Ends, htask] at h
  simp only [exec, Attempt.run_bind, Attempt.run_pure] at h
  split at h
  · exact hflow (Outcome.done.inj (Prod.mk.inj h).1).symm
  · cases h
  · cases h

/-- Whether the flow of the parts is the flow of the whole. -/
def Task.HandsOn : Task → Prop
  | .stmts _ | .stmt (.ifElse ..) => True
  | _ => False

/-- The site `inner` follows directly from the site `outer`, and hands its flow on to it. -/
structure Passes (bound : Nat) (outer inner : Site σ) : Prop where
  enters : Enters bound outer inner
  handsOn : outer.task.HandsOn
  hasFlow : inner.task.HasFlow

/-- Statements end with the flow of the first one, if that is not normal. -/
lemma Machine.execAll_of_first {bound : Nat} {first : Stmt} {m m' : Machine σ} {flow : Flow}
    (hflow : flow ≠ .normal) (hfirst : (exec bound first).run m = (.done flow, m'))
    (rest : List Stmt) : (execAll bound (first :: rest)).run m = (.done flow, m') := by
  rw [execAll, Attempt.run_bind, hfirst]
  simp only [if_neg hflow, Attempt.run_pure]

/-- Behind a first statement that ends normally the others are carried out. -/
lemma Machine.execAll_of_rest {bound : Nat} {first : Stmt} {m m' : Machine σ}
    (hfirst : (exec bound first).run m = (.done .normal, m')) (rest : List Stmt) :
    (execAll bound (first :: rest)).run m = (execAll bound rest).run m' := by
  rw [execAll, Attempt.run_bind, hfirst]
  rfl

/-- A choice whose test has been decided is the block that was chosen. -/
lemma Machine.exec_ifElse_of_test {bound : Nat} {test : Expr} {m m' : Machine σ} {holds : Bool}
    (htest : (eval bound test).run m = (.done (.bool holds), m')) (thenBlock elseBlock : List Stmt)
    (line : Nat) :
    (exec bound (.ifElse test thenBlock elseBlock line)).run m =
      (inFrame (execAll bound (if holds then thenBlock else elseBlock))).run m' := by
  rw [exec, Attempt.run_bind, htest]
  simp only [truth, Attempt.run_bind, Attempt.run_pure]
  cases holds <;> rfl

/-- A flow that is not normal travels from the part to the whole, and nothing else is carried out
on the way. -/
lemma Passes.ends {bound : Nat} {outer inner : Site σ} (h : Passes bound outer inner) {flow : Flow}
    (hflow : flow ≠ .normal) {m : Machine σ} (hinner : inner.Ends bound flow m) :
    ∃ m', outer.Ends bound flow m' ∧ m'.out = m.out := by
  obtain ⟨enters, handsOn, hasFlow⟩ := h
  cases enters with
  | first => exact ⟨m, execAll_of_first hflow hinner _, rfl⟩
  | rest behindFirst => exact ⟨m, (execAll_of_rest behindFirst _).trans hinner, rfl⟩
  | thenBlock holds =>
    exact ⟨m.closed, (exec_ifElse_of_test holds _ _ _).trans (inFrame_of_done hinner), rfl⟩
  | elseBlock fails =>
    exact ⟨m.closed, (exec_ifElse_of_test fails _ _ _).trans (inFrame_of_done hinner), rfl⟩
  | ifTest => exact hasFlow.elim
  | _ => exact handsOn.elim

lemma Site.Ends.handOn {bound : Nat} {outer inner : Site σ} {flow : Flow} {m : Machine σ}
    (hinner : inner.Ends bound flow m) (hflow : flow ≠ .normal)
    (h : Relation.ReflTransGen (Passes bound) outer inner) :
    ∃ m', outer.Ends bound flow m' ∧ m'.out = m.out := by
  induction h using Relation.ReflTransGen.head_induction_on with
  | refl => exact ⟨m, hinner, rfl⟩
  | head step _ ih =>
    obtain ⟨m₁, hends, hout⟩ := ih
    obtain ⟨m₂, hends', hout'⟩ := step.ends hflow hends
    exact ⟨m₂, hends', hout'.trans hout⟩

/-! ## Where no loop is around -/

/-- Where the checker counts no loop, all flow is normal. -/
lemma Site.Typed.flow_eq_normal {site : Site σ} (h : site.Typed)
    (hdepth : site.checker.loopDepth = 0) {bound : Nat} {flow : Flow} {m : Machine σ}
    (hends : site.Ends bound flow m) : flow = .normal := by
  obtain ⟨Γ, inLoop, fits, hc, hm⟩ := h
  have hloop : inLoop ≠ true := fun hin => hc.inLoop_iff.mp hin hdepth
  obtain ⟨task, c, m₀⟩ := site
  by_contra hflow
  cases task with
  | expr e => exact hends.elim
  | stmt s =>
    obtain ⟨Δ, admitted⟩ := fits
    exact hloop (((exec_yields bound admitted hm).of_done hends).1 hflow)
  | stmts body =>
    obtain ⟨Δ, admitted⟩ := fits
    exact hloop (((execAll_yields bound admitted hm).of_done hends).1 hflow)

/-- The checker counts a loop at a part that hands its flow on just if it counts one at the
whole. -/
lemma Passes.loopDepth_iff {bound : Nat} {outer inner : Site σ} (h : Passes bound outer inner)
    (typed : outer.Typed) : inner.checker.loopDepth = 0 ↔ outer.checker.loopDepth = 0 := by
  obtain ⟨enters, handsOn, hasFlow⟩ := h
  obtain ⟨Γ, inLoop, fits, hc, -⟩ := typed
  have same {c c' : TypeChecker} {Γ Γ' : Context} (hc : c.Knows Γ inLoop)
      (hc' : c'.Knows Γ' inLoop) : c'.loopDepth = 0 ↔ c.loopDepth = 0 :=
    not_iff_not.mp (hc'.inLoop_iff.symm.trans hc.inLoop_iff)
  cases enters with
  | first => exact Iff.rfl
  | rest =>
    have ⟨_, .cons admitted _⟩ := fits
    exact same hc (hc.behindStmt admitted)
  | thenBlock =>
    have ⟨_, .ifElse typed _ _⟩ := fits
    exact same hc (hc.behindTest typed).enter
  | elseBlock =>
    have ⟨_, .ifElse typed thenAdmitted _⟩ := fits
    exact same hc ((hc.behindTest typed).behindBlock thenAdmitted).enter
  | ifTest => exact hasFlow.elim
  | _ => exact handsOn.elim

/-- Along parts that hand their flow on no loop comes to be around. -/
lemma Site.Typed.flow_eq_normal_of_passes {bound : Nat} {outer inner : Site σ}
    (typed : outer.Typed) (hdepth : outer.checker.loopDepth = 0)
    (h : Relation.ReflTransGen (Passes bound) outer inner) {flow : Flow} {m : Machine σ}
    (hends : inner.Ends bound flow m) : flow = .normal := by
  have hinner : inner.Typed ∧ inner.checker.loopDepth = 0 := by
    clear hends
    induction h with
    | refl => exact ⟨typed, hdepth⟩
    | tail _ step ih => exact ⟨step.enters.typed ih.1, (step.loopDepth_iff ih.1).mpr ih.2⟩
  exact hinner.1.flow_eq_normal hinner.2 hends

/-- The statements of a block expression that is about to be evaluated. -/
def Site.behindBrace (site : Site σ) (body : List Stmt) : Site σ :=
  ⟨.stmts body, opened { site.checker with loopDepth := 0 }, site.machine.opened⟩

lemma Site.enters_behindBrace (site : Site σ) (bound : Nat) {body : List Stmt} {line : Nat}
    (h : site.task = .expr (.block body line)) : Enters bound site (site.behindBrace body) := by
  obtain ⟨task, c, m⟩ := site
  obtain rfl : task = _ := h
  exact .block

/-- The evaluation of an expression that has a type does not fail for want of a value. -/
lemma Site.Typed.value_exists {site : Site σ} (typed : site.Typed) {e : Expr}
    (he : site.task = .expr e) {bound : Nat} {construct : String} {line : Nat} {m : Machine σ} :
    (eval bound e).run site.machine ≠ (.failed (.noValue construct line), m) := by
  obtain ⟨Γ, inLoop, fits, hc, hm⟩ := typed
  rw [he] at fits
  obtain ⟨ty, typed⟩ := fits
  intro hrun
  have hyields := eval_yields bound typed hm
  rw [Yields, hrun] at hyields
  cases hyields

/-! ## Loops -/

/-- A loop that is about to repeat its body: the machine in front of the test, and behind it. -/
structure Repetition (σ : Type) where
  test : Expr
  body : List Stmt
  line : Nat
  checker : TypeChecker
  before : Machine σ
  tested : Machine σ

namespace Repetition

/-- The loop, in front of its test. -/
def loop (r : Repetition σ) : Site σ :=
  ⟨.stmt (.whileLoop r.test r.body r.line), r.checker, r.before⟩

/-- The statements of the body, behind its opening brace. -/
def inside (r : Repetition σ) : Site σ :=
  ⟨.stmts r.body, opened { r.checker.behindTest "while" r.test r.line with
    loopDepth := (r.checker.behindTest "while" r.test r.line).loopDepth + 1 }, r.tested.opened⟩

/-- The loop is visited, and its test holds. -/
structure Begins (bound : Nat) (program : Program) (out : σ) (r : Repetition σ) : Prop where
  visited : program.Visits bound out r.loop
  holds : (eval bound r.test).run r.before = (.done (.bool true), r.tested)

/-- The loop, with at most so many repetitions. -/
def repeated (bound : Nat) (r : Repetition σ) (steps : Nat) : Running σ Unit :=
  Attempt.iterate
    (do
      let value ← eval bound r.test
      truth "while" r.line value)
    (do
      let flow ← inFrame (execAll bound r.body)
      return flow ≠ .broken)
    steps

/-- A loop is carried out by its repetitions. -/
lemma exec_loop (bound : Nat) (r : Repetition σ) :
    exec bound (.whileLoop r.test r.body r.line) = (do
      r.repeated bound bound
      return .normal : Running σ Flow) := by
  rw [exec, repeated]

/-- A loop whose body ends with a `break` is done, and otherwise goes on with its test. -/
lemma repeat_of_ends {bound : Nat} {r : Repetition σ} {flow : Flow} {m : Machine σ}
    (holds : (eval bound r.test).run r.before = (.done (.bool true), r.tested))
    (hends : r.inside.Ends bound flow m) (steps : Nat) :
    (r.repeated bound (steps + 1)).run r.before =
      if flow = .broken then (.done (), m.closed) else (r.repeated bound steps).run m.closed := by
  have htest : (do
      let value ← eval bound r.test
      truth "while" r.line value : Running σ Bool) r.before = (.done true, r.tested) := by
    change Attempt.run _ r.before = _
    rw [Attempt.run_bind, holds]
    rfl
  have hbody : (do
      let flow ← inFrame (execAll bound r.body)
      return flow ≠ .broken : Running σ Bool) r.tested =
        (.done (decide (flow ≠ .broken)), m.closed) := by
    change Attempt.run _ r.tested = _
    rw [Attempt.run_bind, inFrame_of_done hends]
    rfl
  rw [repeated, Attempt.run, Attempt.iterate, htest]
  dsimp only
  rw [hbody]
  by_cases hflow : flow = .broken
  · simp only [hflow, ne_eq, not_true_eq_false, decide_false, if_true]
  · simp only [hflow, ne_eq, not_false_eq_true, decide_true, if_false]
    rfl

end Repetition

/-- Where the checker of a well-typed program counts a loop, there is a repetition of one whose
body leads to the site, through nothing but lists and choices. -/
lemma Program.Visits.confined {bound : Nat} {program : Program} {out : σ} {site : Site σ}
    (wellTyped : program.WellTyped) (h : program.Visits bound out site)
    (hflow : site.task.HasFlow)
    (hloop : ∀ test body line, site.task ≠ .stmt (.whileLoop test body line))
    (hdepth : site.checker.loopDepth ≠ 0) :
    ∃ r : Repetition σ, r.Begins bound program out ∧
      Relation.ReflTransGen (Passes bound) r.inside site := by
  induction h with
  | refl => exact absurd rfl hdepth
  | @tail outer inner visited step ih =>
    have typed := Program.Visits.typed wellTyped visited
    -- From a list or a choice the repetition is the one around the whole.
    have around (handsOn : outer.task.HandsOn) : ∃ r : Repetition σ,
        r.Begins bound program out ∧ Relation.ReflTransGen (Passes bound) r.inside inner := by
      have passes : Passes bound outer inner := ⟨step, handsOn, hflow⟩
      obtain ⟨r, hr, path⟩ := ih (by cases step <;> trivial)
        (by cases step <;> first | exact handsOn.elim | exact nofun)
        (fun h0 => hdepth ((passes.loopDepth_iff typed).mpr h0))
      exact ⟨r, hr, path.tail passes⟩
    cases step with
    | first => exact around trivial
    | rest => exact around trivial
    | thenBlock => exact around trivial
    | elseBlock => exact around trivial
    | @whileBody test body line c c' m m' holds behindTest =>
      subst behindTest
      exact ⟨⟨test, body, line, c, m, m'⟩, ⟨visited, holds⟩, .refl⟩
    | block => exact absurd rfl hdepth
    | whileAgain => exact absurd rfl (hloop _ _ _)
    | _ => exact hflow.elim

/-! ## Complete runs -/

namespace Machine

/-- The statements are carried out one behind the other, each of them to its normal end. -/
inductive Completes (bound : Nat) : List Stmt → Machine σ → Machine σ → Prop
  | nil {m : Machine σ} : Completes bound [] m m
  | cons {first : Stmt} {rest : List Stmt} {m m' m'' : Machine σ}
      (behindFirst : (exec bound first).run m = (.done .normal, m'))
      (behindRest : Completes bound rest m' m'') : Completes bound (first :: rest) m m''

lemma completes_of_execAll {bound : Nat} {body : List Stmt} {m m' : Machine σ}
    (h : (execAll bound body).run m = (.done .normal, m')) : Completes bound body m m' := by
  induction body generalizing m with
  | nil =>
    rw [execAll, Attempt.run_pure, Prod.mk.injEq] at h
    obtain ⟨-, rfl⟩ := h
    exact .nil
  | cons first rest ih =>
    obtain ⟨outcome, m₁, hfirst⟩ : ∃ outcome m₁, (exec bound first).run m = (outcome, m₁) :=
      ⟨_, _, rfl⟩
    cases outcome with
    | done flow =>
      by_cases hflow : flow = .normal
      · subst hflow
        rw [execAll_of_rest hfirst] at h
        exact .cons hfirst (ih h)
      · rw [execAll_of_first hflow hfirst] at h
        exact absurd (Outcome.done.inj (Prod.mk.inj h).1) hflow
    | failed fault =>
      rw [execAll, Attempt.run_bind, hfirst] at h
      cases h
    | unfinished =>
      rw [execAll, Attempt.run_bind, hfirst] at h
      cases h

end Machine

/-- A program that is done has carried out its statements and flushed its output. -/
lemma Program.execAll_of_run {bound : Nat} {program : Program} {out : σ}
    (h : (program.run bound out).1 = .done ()) :
    ∃ flow m, (execAll bound program.body).run ⟨.root, out⟩ = (.done flow, m) ∧
      Sink.flush m.out = (none, (program.run bound out).2) := by
  simp only [Program.run, Machine.run, Attempt.run_bind, Attempt.run_modify] at h ⊢
  generalize (execAll bound program.body).run ⟨.root, out⟩ = ending at h ⊢
  obtain ⟨outcome, m⟩ := ending
  cases outcome with
  | failed fault => cases h
  | unfinished => cases h
  | done flow =>
    refine ⟨flow, m, rfl, ?_⟩
    simp only [Attempt.run, output] at h ⊢
    generalize Sink.flush m.out = flushed at h ⊢
    obtain ⟨reason, out'⟩ := flushed
    cases reason with
    | none => rfl
    | some reason => cases h

end

end BlockLang
