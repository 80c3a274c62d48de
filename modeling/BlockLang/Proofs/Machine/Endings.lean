import BlockLang.Machine.Execution
import BlockLang.Proofs.Endings

/-!
# How the activities of a machine end

An activity in a frame of its own ends as it does without the frame, which is left behind it
(`Machine.run_inFrame`, `Machine.ends_inFrame`), and the sink is the only thing that an output
touches (`Machine.ends_output`).
-/

namespace BlockLang.Machine

open Attempt

variable {σ α : Type} {x : Running σ α} {m : Machine σ} {allowed : Fault → Prop}
  {Post : α → Machine σ → Prop}

/-- A frame is left however the activity in it comes to an end; if the activity is stopped, it is
not. -/
lemma run_inFrame {outcome : Outcome Fault α} {m' : Machine σ}
    (hrun : x.run ⟨m.env.enter, m.out⟩ = (outcome, m')) :
    (inFrame x).run m =
      (outcome, ⟨if outcome.isFinished then Environment.exit m'.env else m'.env, m'.out⟩) := by
  rw [inFrame, run_bind, run_modify]
  simp only [run_thenAlways, hrun]
  cases outcome <;> rfl

/-- An activity in a frame of its own. -/
lemma ends_inFrame
    (h : Ends allowed x ⟨m.env.enter, m.out⟩ fun a m' =>
      Post a ⟨Environment.exit m'.env, m'.out⟩) : Ends allowed (inFrame x) m Post := by
  obtain ⟨outcome, m', hrun⟩ : ∃ outcome m', x.run ⟨m.env.enter, m.out⟩ = (outcome, m') :=
    ⟨_, _, rfl⟩
  rw [Ends, hrun] at h
  rw [Ends, run_inFrame hrun]
  cases outcome <;> exact h

/-- A statement of a block expression that is not the last one. -/
lemma evalBody_cons_cons [Sink σ] (bound line : Nat) (first second : Stmt) (rest : List Stmt) :
    (evalBody bound line (first :: second :: rest) : Running σ Value) =
      (exec bound first >>= fun flow =>
        if flow = .normal then evalBody bound line (second :: rest)
        else Attempt.fail (.noValue "block" line)) := by
  rw [evalBody]
  intro hnil
  cases hnil

/-- Writing to a sink leaves the environment as it is. -/
lemma ends_output (refusals : ∀ reason, allowed (.outputFailed reason))
    (operation : σ → Option String × σ) :
    Ends allowed (output operation) m fun _ m' => m'.env = m.env := by
  unfold Ends
  rw [Attempt.run, output]
  obtain ⟨reason, out⟩ := operation m.out
  cases reason with
  | none => rfl
  | some reason => exact refusals reason

end BlockLang.Machine
