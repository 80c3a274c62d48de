import BlockLang.Proofs.Machine.History
import BlockLang.Proofs.Machine.Resolution
import BlockLang.Proofs.Scope.Atop
import Mathlib

/-!
# Self-contained blocks

A block that the checker accepts as a program of its own has nothing to do with what is around it:
carried out inside of any frames it writes what it writes as a program and ends as the program
does, and then the frames are as they were (`Program.isolated`).

Two runs are compared, one in a root frame of its own and one with its frames on top of others.
`Machine.Detached` says of an activity that the two are alike unless the one that is alone ends
with the fault of a name without a binding; for only then could the other one find the name further
out.  This holds of all pieces of all programs.  That a block which the checker accepts never ends
with that fault is `Machine.execAll_resolves`.
-/

namespace BlockLang

/-- The frames are so many, each inside of the one before it. -/
def Environment.HasFrames (env : Environment) (count : Nat) : Prop :=
  ∃ layers, env.Stacked layers ∧ layers.length = count

namespace Environment

variable {env : Environment} {count : Nat}

lemma hasFrames_root : HasFrames .root 1 :=
  ⟨_, ScopeTree.stacked_root, rfl⟩

namespace HasFrames

lemma enter (h : env.HasFrames count) : HasFrames env.enter (count + 1) := by
  obtain ⟨layers, hstacked, rfl⟩ := h
  exact ⟨_, hstacked.enter, rfl⟩

/-- Of several frames the innermost one is left, with others around it or not. -/
lemma exit (h : env.HasFrames (count + 2)) (base : Environment) :
    HasFrames (Environment.exit env) (count + 1) ∧
      Environment.exit (base.atop env) = base.atop (Environment.exit env) := by
  obtain ⟨layers, hstacked, hcount⟩ := h
  cases layers with
  | nil => cases hcount
  | cons top layers =>
    rw [List.length_cons, Nat.add_right_cancel_iff] at hcount
    have inner : layers ≠ [] := by
      rintro rfl
      cases hcount
    exact ⟨⟨layers, hstacked.leaveAndDrop inner, hcount⟩,
      ScopeTree.atop_leaveAndDrop hstacked.hasLayers inner⟩

/-- Of a single frame nothing is left of what was put on top of others. -/
lemma exit_outermost (h : env.HasFrames 1) (base : Environment) :
    Environment.exit (base.atop env) = base := by
  obtain ⟨layers, hstacked, hcount⟩ := h
  obtain ⟨top, rfl⟩ := List.length_eq_one_iff.mp hcount
  exact ScopeTree.atop_leaveAndDrop_outermost hstacked

lemma define (h : env.HasFrames count) (name : String) (kind : BindingKind) (value : Value) :
    HasFrames (Environment.define env name kind value) count := by
  obtain ⟨layers, hstacked, hcount⟩ := h
  cases layers with
  | nil => exact absurd rfl hstacked.hasLayers.ne_nil
  | cons top layers => exact ⟨_, hstacked.insert name ⟨kind, value⟩, hcount⟩

lemma insertAt (h : env.HasFrames count) {name : String} {owner : Nat} {old : Binding}
    (found : env.find? name = some (owner, old)) (binding : Binding) :
    HasFrames (env.insertAt owner name binding) count := by
  obtain ⟨layers, hstacked, hcount⟩ := h
  exact ⟨_, hstacked.insertAt found binding, by rw [ScopeTree.length_replaceFirst, hcount]⟩

end HasFrames

end Environment

namespace Machine

variable {σ α β : Type} {x : Running σ α} {f : α → Running σ β} {m m' : Machine σ}

/-! ## Frames on top of others -/

/-- A machine with its frames on top of others. -/
def atop (base : Environment) (m : Machine σ) : Machine σ :=
  ⟨base.atop m.env, m.out⟩

/-- Carried out with its frames on top of others, an activity ends as it does alone, unless alone
it ends with the fault of a name without a binding. -/
structure Detached (x : Running σ α) : Prop where
  hasFrames : ∀ {m : Machine σ} {count : Nat}, m.env.HasFrames (count + 1) →
    (x.run m).1.isFinished = true → (x.run m).2.env.HasFrames (count + 1)
  unbound_or_same : ∀ {m : Machine σ} {count : Nat}, m.env.HasFrames (count + 1) →
    (∃ name line, (x.run m).1 = .failed (.undefinedVariable name line)) ∨
      ∀ base, x.run (m.atop base) = ((x.run m).1, (x.run m).2.atop base)

/-- An activity that has nothing to do with the frames. -/
lemma detached_of_env_eq (henv : ∀ m, (x.run m).2.env = m.env)
    (hsame : ∀ m base, x.run (m.atop base) = ((x.run m).1, (x.run m).2.atop base)) :
    Detached x where
  hasFrames {m _} hm _ := by
    rw [henv m]
    exact hm
  unbound_or_same _ := .inr fun base => hsame _ base

lemma detached_output (operation : σ → Option String × σ) : Detached (output operation) := by
  apply detached_of_env_eq
  · intro m
    rw [Attempt.run, output]
    rcases operation m.out with ⟨_ | _, out⟩ <;> rfl
  · intro m base
    show output operation (m.atop base) = _
    rw [Attempt.run, output, output, Machine.atop]
    rcases operation m.out with ⟨_ | _, out⟩ <;> rfl

lemma detached_lookup (ident : Ident) : Detached (lookup ident : Running σ Value) where
  hasFrames {m _} hm _ := by
    rw [Attempt.run, lookup]
    split <;> exact hm
  unbound_or_same {m _} _ := by
    cases hfind : m.env.find? ident.name with
    | none =>
      refine .inl ⟨ident.name, ident.line, ?_⟩
      rw [Attempt.run, lookup, Environment.lookup, ScopeTree.get?, hfind]
      rfl
    | some found =>
      refine .inr fun base => ?_
      have hfind' : (base.atop m.env).find? ident.name =
          some (base.scopes.size + found.1, found.2) := ScopeTree.find?_atop hfind
      simp only [Attempt.run, lookup, atop, Environment.lookup, ScopeTree.get?, hfind, hfind',
        Option.map_some]

lemma detached_define (name : Ident) (kind : BindingKind) (value : Value) :
    Detached (define name kind value : Running σ Unit) where
  hasFrames hm _ := hm.define name.name kind value
  unbound_or_same {m _} _ := .inr fun base =>
    congrArg (fun env => (Outcome.done (), Machine.mk env m.out))
      (ScopeTree.atop_insert base m.env name.name ⟨kind, value⟩)

lemma detached_assign (target : Ident) (value : Value) (line : Nat) :
    Detached (assign target value line : Running σ Unit) where
  hasFrames {m _} hm _ := by
    rw [Attempt.run, assign, Environment.assign]
    cases hfind : m.env.find? target.name with
    | none => exact hm
    | some found =>
      obtain ⟨owner, ⟨kind, old⟩⟩ := found
      cases kind with
      | const => exact hm
      | var => exact hm.insertAt hfind ⟨.var, value⟩
  unbound_or_same {m _} _ := by
    cases hfind : m.env.find? target.name with
    | none =>
      refine .inl ⟨target.name, line, ?_⟩
      rw [Attempt.run, assign, Environment.assign, hfind]
    | some found =>
      obtain ⟨owner, ⟨kind, old⟩⟩ := found
      refine .inr fun base => ?_
      have hfind' : (base.atop m.env).find? target.name =
          some (base.scopes.size + owner, ⟨kind, old⟩) := ScopeTree.find?_atop hfind
      simp only [Attempt.run, assign, atop, Environment.assign, hfind, hfind']
      cases kind with
      | const => rfl
      | var => simp only [ScopeTree.atop_insertAt]

/-! ## Activities put together -/

lemma Detached.bind (first : Detached x) (behind : ∀ a, Detached (f a)) : Detached (x >>= f) where
  hasFrames {m _} hm hfinished := by
    have hfirst := first.hasFrames hm
    rw [Attempt.run_bind] at hfinished ⊢
    obtain ⟨outcome, m₁, hrun⟩ : ∃ outcome m₁, x.run m = (outcome, m₁) := ⟨_, _, rfl⟩
    rw [hrun] at hfirst hfinished ⊢
    cases outcome with
    | done a => exact (behind a).hasFrames (hfirst rfl) hfinished
    | failed fault => exact hfirst rfl
    | unfinished => cases hfinished
  unbound_or_same {m _} hm := by
    have hfirst := first.hasFrames hm
    obtain ⟨outcome, m₁, hrun⟩ : ∃ outcome m₁, x.run m = (outcome, m₁) := ⟨_, _, rfl⟩
    rw [Attempt.run_bind]
    rcases first.unbound_or_same hm with ⟨name, line, hunbound⟩ | hsame
    · refine .inl ⟨name, line, ?_⟩
      rw [hrun] at hunbound ⊢
      obtain rfl : outcome = _ := hunbound
      rfl
    · rw [hrun] at hfirst hsame ⊢
      cases outcome with
      | failed fault =>
        refine .inr fun base => ?_
        rw [Attempt.run_bind, hsame base]
      | unfinished =>
        refine .inr fun base => ?_
        rw [Attempt.run_bind, hsame base]
      | done a =>
        rcases (behind a).unbound_or_same (hfirst rfl) with hunbound | hsame'
        · exact .inl hunbound
        · refine .inr fun base => ?_
          rw [Attempt.run_bind, hsame base]
          exact hsame' base

lemma Detached.inFrame (inside : Detached x) : Detached (inFrame x) where
  hasFrames {m _} hm hfinished := by
    obtain ⟨outcome, m₁, hrun⟩ : ∃ outcome m₁, x.run ⟨m.env.enter, m.out⟩ = (outcome, m₁) :=
      ⟨_, _, rfl⟩
    have hinside := inside.hasFrames (m := ⟨m.env.enter, m.out⟩) hm.enter
    rw [run_inFrame hrun] at hfinished ⊢
    rw [hrun] at hinside
    rw [hfinished]
    exact ((hinside hfinished).exit .root).1
  unbound_or_same {m _} hm := by
    obtain ⟨outcome, m₁, hrun⟩ : ∃ outcome m₁, x.run ⟨m.env.enter, m.out⟩ = (outcome, m₁) :=
      ⟨_, _, rfl⟩
    have hinside := inside.hasFrames (m := ⟨m.env.enter, m.out⟩) hm.enter
    rw [run_inFrame hrun]
    rw [hrun] at hinside
    rcases inside.unbound_or_same (m := ⟨m.env.enter, m.out⟩) hm.enter with
      ⟨name, line, hunbound⟩ | hsame
    · rw [hrun] at hunbound
      exact .inl ⟨name, line, hunbound⟩
    · refine .inr fun base => ?_
      have henter : (⟨(m.atop base).env.enter, (m.atop base).out⟩ : Machine σ) =
          atop base ⟨m.env.enter, m.out⟩ :=
        congrArg (Machine.mk · m.out) (ScopeTree.atop_enter base m.env)
      have hrun' := hsame base
      rw [hrun, ← henter] at hrun'
      rw [run_inFrame hrun']
      cases outcome with
      | unfinished => rfl
      | done a =>
        exact congrArg (fun env => (Outcome.done a, Machine.mk env m₁.out))
          ((hinside rfl).exit base).2
      | failed fault =>
        exact congrArg (fun env => (Outcome.failed fault, Machine.mk env m₁.out))
          ((hinside rfl).exit base).2

/-- All pieces of all programs are detached from what is around them. -/
lemma compositional_detached [Sink σ] :
    Recorded.Compositional fun _ (x : Recorded σ _) => Detached x.activity where
  pure _ := detached_of_env_eq (fun _ => rfl) fun _ _ => rfl
  fail _ := detached_of_env_eq (fun _ => rfl) fun _ _ => rfl
  stop := detached_of_env_eq (fun _ => rfl) fun _ _ => rfl
  bind := .bind
  inFrame := .inFrame
  begins _ := detached_of_env_eq (fun _ => rfl) fun _ _ => rfl
  lookup := detached_lookup
  define := detached_define
  assign := detached_assign
  print _ := detached_output _

end Machine

namespace Program

open Machine

/-- A run of a program, by how its statements end. -/
lemma run_of_execAll {program : Program} {σ : Type} [Sink σ] {bound : Nat} {out : σ}
    {outcome : Outcome Fault Flow} {m : Machine σ}
    (hrun : (execAll bound program.body).run ⟨.root, out⟩ = (outcome, m)) :
    match outcome with
    | .done _ => (Sink.flush m.out).1 = none →
        program.run bound out = (.done (), (Sink.flush m.out).2)
    | .failed fault => program.run bound out = (.failed fault, m.out)
    | .unfinished => program.run bound out = (.unfinished, m.out) := by
  rw [Program.run, Machine.run, Attempt.run_bind, Attempt.run_modify]
  simp only [Attempt.run_bind, hrun]
  cases outcome with
  | failed fault => rfl
  | unfinished => rfl
  | done flow =>
    intro flushes
    simp only [Attempt.run, output]
    rcases hflush : Sink.flush m.out with ⟨_ | reason, out'⟩
    · rfl
    · rw [hflush] at flushes
      cases flushes

/-- A block that the checker accepts as a program of its own is isolated from what is around it.
In whatever frames it is carried out, it writes what it writes as a program and ends as the program
does, if the flush at the end of the program does not fail, and then the frames are as they were. -/
theorem isolated {program : Program} (accepted : program.check = .ok ()) {σ : Type} [Sink σ]
    (bound : Nat) (env : Environment) (out : σ) :
    ∃ (outcome : Outcome Fault Flow) (m : Machine σ),
      (inFrame (execAll bound program.body)).run ⟨env, out⟩ = (outcome, m) ∧
      ((outcome = .done .normal ∧ m.env = env ∧ ((Sink.flush m.out).1 = none →
          program.run bound out = (.done (), (Sink.flush m.out).2))) ∨
        (∃ fault, outcome = .failed fault ∧ m.env = env ∧
          program.run bound out = (.failed fault, m.out)) ∨
        (outcome = .unfinished ∧ program.run bound out = (.unfinished, m.out))) := by
  have closed := allClosed_of_check accepted
  have hends := execAll_resolves bound (m := ⟨.root, out⟩) closed Environment.binds_root
  have detached := compositional_detached.execAll (σ := σ) bound program.body
  rw [Recorded.activity_execAll] at detached
  obtain ⟨outcome, m, hrun⟩ : ∃ outcome m,
    (execAll bound program.body).run ⟨.root, out⟩ = (outcome, m) := ⟨_, _, rfl⟩
  have halone := run_of_execAll hrun
  have hframes := detached.hasFrames (m := ⟨.root, out⟩) Environment.hasFrames_root
  rw [hrun] at hframes
  -- Inside of the other frames the block does what it does alone, since all its names are bound.
  have hinside : (execAll bound program.body).run ⟨env.enter, out⟩ = (outcome, m.atop env) := by
    rw [ScopeTree.enter_eq_atop_root]
    rcases detached.unbound_or_same (m := ⟨.root, out⟩) Environment.hasFrames_root with
      ⟨name, line, hunbound⟩ | hsame
    · rw [hrun] at hunbound
      exact (hends.of_failed (hrun.trans (congrArg (·, m) hunbound))).elim
    · exact (hsame env).trans (by rw [hrun])
  refine ⟨_, _, run_inFrame hinside, ?_⟩
  cases outcome with
  | done flow =>
    have hflow : flow = .normal := by simpa using hends.of_done hrun
    subst hflow
    exact .inl ⟨rfl, (hframes rfl).exit_outermost env, halone⟩
  | failed fault =>
    exact .inr (.inl ⟨fault, rfl, (hframes rfl).exit_outermost env, halone⟩)
  | unfinished => exact .inr (.inr ⟨rfl, halone⟩)

/-- A loop over a variable `i` of its own, where the frames around it have a constant `i`. -/
theorem isolated_shadowing :
    ∃ program : Program, program.check = .ok () ∧
      (inFrame (execAll 3 program.body)).run
          ⟨Environment.define .root "i" .const (.int 7), Buffer.unbounded⟩ =
        (.done .normal, ⟨Environment.define .root "i" .const (.int 7),
          ⟨"1\n2\n".toUTF8, none, none⟩⟩) ∧
      program.run 3 Buffer.unbounded = (.done (), ⟨"1\n2\n".toUTF8, none, none⟩) := by
  have hcheck : (⟨[.varDef ⟨"i", 1⟩ none (.literal (.int 1 1)) 1,
      .whileLoop (.binary .lt (.name ⟨"i", 1⟩) (.literal (.int 3 1)) 1)
        [.print (.name ⟨"i", 1⟩) 1, .assign ⟨"i", 1⟩
          (.binary .add (.name ⟨"i", 1⟩) (.literal (.int 1 1)) 1) 1] 1]⟩ : Program).check =
      .ok () := by cbv
  obtain ⟨outcome, m, hblock, hcases⟩ :=
    isolated hcheck 3 (Environment.define .root "i" .const (.int 7)) Buffer.unbounded
  have hends : (outcome, m) = (.done .normal, ⟨Environment.define .root "i" .const (.int 7),
      ⟨"1\n2\n".toUTF8, none, none⟩⟩) := hblock.symm.trans (by cbv)
  obtain ⟨rfl, rfl⟩ := Prod.mk.inj hends
  rcases hcases with ⟨-, -, halone⟩ | ⟨_, hfailed, -⟩ | ⟨hunfinished, -⟩
  · exact ⟨_, hcheck, hblock, halone rfl⟩
  · cases hfailed
  · cases hunfinished

end Program

end BlockLang
