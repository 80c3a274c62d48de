import BlockLang.Attempt
import Mathlib.Tactic.Common

/-!
# How attempts end

`Attempt.Ends allowed x s Post` says how the attempt `x` ends that begins in the state `s`: with a
value and a state of which `Post` holds, or with a fault that is `allowed`, or not at all.  There is
one lemma for each way in which attempts are put together, so that a proof about a tree follows the
tree and never looks into a run.

Often the states are asked for no more than an invariant.  `Attempt.Upholds allowed Inv x P` says
that from every state with the invariant `Inv` the attempt ends in such a state, with a value of the
property `P`, or with an allowed fault, or not at all.
-/

namespace BlockLang.Attempt

variable {σ ε α β : Type} {x : Attempt σ ε α} {f : α → Attempt σ ε β} {s : σ}
  {allowed : ε → Prop} {Post Post' : α → σ → Prop}

/-- From `s` the attempt ends with a value and a state of which `Post` holds, or with an allowed
fault, or not at all. -/
def Ends (allowed : ε → Prop) (x : Attempt σ ε α) (s : σ) (Post : α → σ → Prop) : Prop :=
  match x.run s with
  | (.done a, s') => Post a s'
  | (.failed fault, _) => allowed fault
  | (.unfinished, _) => True

lemma Ends.of_done {a : α} {s' : σ} (h : Ends allowed x s Post)
    (hrun : x.run s = (.done a, s')) : Post a s' := by
  simpa only [Ends, hrun] using h

lemma Ends.of_failed {fault : ε} {s' : σ} (h : Ends allowed x s Post)
    (hrun : x.run s = (.failed fault, s')) : allowed fault := by
  simpa only [Ends, hrun] using h

/-- What holds behind an attempt may be weakened. -/
lemma Ends.mono (h : Ends allowed x s Post) (hpost : ∀ a s', Post a s' → Post' a s') :
    Ends allowed x s Post' := by
  unfold Ends at h ⊢
  split at h
  · exact hpost _ _ h
  · exact h
  · exact h

@[simp] lemma ends_pure {a : α} : Ends allowed (pure a) s Post ↔ Post a s :=
  Iff.rfl

@[simp] lemma ends_modify {g : σ → σ} {Post : Unit → σ → Prop} :
    Ends allowed (modify g) s Post ↔ Post () (g s) :=
  Iff.rfl

/-- Behind the first of two attempts the second one has to end as it should. -/
@[simp] lemma ends_bind {Post : β → σ → Prop} :
    Ends allowed (x >>= f) s Post ↔ Ends allowed x s fun a s' => Ends allowed (f a) s' Post := by
  unfold Ends
  rw [run_bind]
  generalize x.run s = ending
  obtain ⟨outcome, s'⟩ := ending
  cases outcome <;> rfl

/-- What the test and the body of a loop keep is kept by any number of repetitions. -/
lemma ends_iterate {test body : Attempt σ ε Bool} (Inv : σ → Prop)
    (htest : ∀ s, Inv s → Ends allowed test s fun _ s' => Inv s')
    (hbody : ∀ s, Inv s → Ends allowed body s fun _ s' => Inv s') (steps : Nat) :
    ∀ {s : σ}, Inv s → Ends allowed (iterate test body steps) s fun _ s' => Inv s' := by
  induction steps with
  | zero => exact fun _ => trivial
  | succ steps ih =>
    intro s hs
    have hbehindTest := htest s hs
    unfold Ends at hbehindTest ⊢
    rw [run, iterate]
    split at hbehindTest
    · next holds s₁ hrun =>
      rw [run] at hrun
      simp only [hrun]
      cases holds with
      | false => exact hbehindTest
      | true =>
        have hbehindBody := hbody s₁ hbehindTest
        unfold Ends at hbehindBody
        split at hbehindBody
        · next again s₂ hrun' =>
          rw [run] at hrun'
          simp only [hrun']
          cases again with
          | false => exact hbehindBody
          | true => exact ih hbehindBody
        · next hrun' =>
          rw [run] at hrun'
          simpa only [hrun'] using hbehindBody
        · next hrun' =>
          rw [run] at hrun'
          simp only [hrun']
    · next hrun =>
      rw [run] at hrun
      simpa only [hrun] using hbehindTest
    · next hrun =>
      rw [run] at hrun
      simp only [hrun]

/-! ## Invariants -/

variable {Inv : σ → Prop} {P : α → Prop}

/-- From every state with the invariant the attempt ends in such a state and with a value of the
property `P`, or with an allowed fault, or not at all. -/
def Upholds (allowed : ε → Prop) (Inv : σ → Prop) (x : Attempt σ ε α) (P : α → Prop) : Prop :=
  ∀ s, Inv s → Ends allowed x s fun a s' => P a ∧ Inv s'

lemma upholds_pure {a : α} (h : P a) : Upholds allowed Inv (pure a) P :=
  fun _ hs => ⟨h, hs⟩

lemma upholds_fail {fault : ε} (h : allowed fault) : Upholds allowed Inv (fail fault) P :=
  fun _ _ => h

lemma upholds_stop : Upholds allowed Inv (stop : Attempt σ ε α) P :=
  fun _ _ => trivial

lemma upholds_ofExcept {result : Except ε α} (hvalue : ∀ a, result = .ok a → P a)
    (hfault : ∀ fault, result = .error fault → allowed fault) :
    Upholds allowed Inv (ofExcept result) P := by
  intro s hs
  cases result with
  | ok a => exact ⟨hvalue a rfl, hs⟩
  | error fault => exact hfault fault rfl

/-- The second of two attempts may rely on the value of the first one. -/
lemma Upholds.bind {Q : β → Prop} (h : Upholds allowed Inv x P)
    (h' : ∀ a, P a → Upholds allowed Inv (f a) Q) : Upholds allowed Inv (x >>= f) Q :=
  fun s hs => ends_bind.mpr ((h s hs).mono fun a s' behind => h' a behind.1 s' behind.2)

lemma Upholds.iterate {test body : Attempt σ ε Bool} {P Q : Bool → Prop}
    (htest : Upholds allowed Inv test P) (hbody : Upholds allowed Inv body Q) (steps : Nat) :
    Upholds allowed Inv (iterate test body steps) fun _ => True := by
  intro s hs
  refine (ends_iterate Inv (fun s hs => ?_) (fun s hs => ?_) steps hs).mono
    fun _ _ h => ⟨trivial, h⟩
  · exact (htest s hs).mono fun _ _ h => h.2
  · exact (hbody s hs).mono fun _ _ h => h.2

/-! ## Coming to an end -/

/-- From `s` the attempt comes to an end, with a value and a state of which `Post` holds, or with a
fault. -/
def Settles (x : Attempt σ ε α) (s : σ) (Post : α → σ → Prop) : Prop :=
  match x.run s with
  | (.done a, s') => Post a s'
  | (.failed _, _) => True
  | (.unfinished, _) => False

lemma Settles.ne_unfinished (h : Settles x s Post) : (x.run s).1 ≠ .unfinished := by
  intro hrun
  unfold Settles at h
  split at h
  · next heq => simp [heq] at hrun
  · next heq => simp [heq] at hrun
  · exact h

lemma Settles.mono (h : Settles x s Post) (hpost : ∀ a s', Post a s' → Post' a s') :
    Settles x s Post' := by
  unfold Settles at h ⊢
  split at h
  · exact hpost _ _ h
  · exact h
  · exact h

@[simp] lemma settles_get {Post : σ → σ → Prop} :
    Settles (get : Attempt σ ε σ) s Post ↔ Post s s :=
  Iff.rfl

lemma settles_fail (fault : ε) : Settles (fail fault) s Post :=
  trivial

lemma settles_ofExcept {result : Except ε α} (h : ∀ a, Post a s) :
    Settles (ofExcept result) s Post := by
  cases result with
  | ok a => exact h a
  | error _ => trivial

/-- Of two attempts, the second one has to come to an end behind the first one. -/
lemma settles_bind {Post : β → σ → Prop} :
    Settles (x >>= f) s Post ↔ Settles x s fun a s' => Settles (f a) s' Post := by
  unfold Settles
  rw [run_bind]
  generalize x.run s = ending
  obtain ⟨outcome, s'⟩ := ending
  cases outcome <;> rfl

/-- An attempt behind another one, of which `Post` holds. -/
lemma Settles.bind {Post : α → σ → Prop} {Post' : β → σ → Prop} (h : Settles x s Post)
    (h' : ∀ a s', Post a s' → Settles (f a) s' Post') : Settles (x >>= f) s Post' :=
  settles_bind.mpr (h.mono h')

end BlockLang.Attempt
