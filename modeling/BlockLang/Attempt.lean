/-!
# Attempts

`Outcome ε α` is how an activity ends: it is done with a value, it has failed with a fault, or it
was stopped before it ended.  An `Attempt σ ε α` is an activity on a state, which it leaves behind
however it ends: a reader that fails stays where it failed, and a run that fails keeps what it has
written.

`Attempt.iterate` repeats an attempt for as long as a test holds, at most a given number of times.
-/

namespace BlockLang

/-- How an activity ends. -/
inductive Outcome (ε : Type) (α : Type)
  | done (value : α)
  | failed (fault : ε)
  /-- A bound on the number of steps was reached. -/
  | unfinished
  deriving Repr, Inhabited

namespace Outcome

variable {ε α β : Type}

/-- Go on with the value of an activity that is done. -/
@[inline] protected def bind (x : Outcome ε α) (f : α → Outcome ε β) : Outcome ε β :=
  match x with
  | done value => f value
  | failed fault => failed fault
  | unfinished => unfinished

instance : Monad (Outcome ε) where
  pure := done
  bind := Outcome.bind

/-- An activity that cannot be stopped. -/
def ofExcept : Except ε α → Outcome ε α
  | .ok value => done value
  | .error fault => failed fault

/-- Whether the activity came to an end. -/
def isFinished : Outcome ε α → Bool
  | unfinished => false
  | _ => true

@[simp] theorem done_bind (value : α) (f : α → Outcome ε β) : (done value >>= f) = f value := rfl

@[simp] theorem failed_bind (fault : ε) (f : α → Outcome ε β) :
    ((failed fault : Outcome ε α) >>= f) = failed fault := rfl

@[simp] theorem unfinished_bind (f : α → Outcome ε β) :
    ((unfinished : Outcome ε α) >>= f) = unfinished := rfl

end Outcome

/-- An activity on a state. -/
def Attempt (σ ε α : Type) : Type :=
  σ → Outcome ε α × σ

namespace Attempt

variable {σ ε α β : Type}

/-- End at once with a value. -/
@[always_inline, inline] protected def pure (value : α) : Attempt σ ε α := fun s =>
  (.done value, s)

/-- Carry out an activity and, if it is done, the one that its value asks for. -/
@[always_inline, inline] protected def bind (x : Attempt σ ε α) (f : α → Attempt σ ε β) :
    Attempt σ ε β := fun s =>
  match x s with
  | (.done value, s') => f value s'
  | (.failed fault, s') => (.failed fault, s')
  | (.unfinished, s') => (.unfinished, s')

instance : Monad (Attempt σ ε) where
  pure := Attempt.pure
  bind := Attempt.bind

/-- Carry out an activity from a state. -/
@[inline] def run (x : Attempt σ ε α) (s : σ) : Outcome ε α × σ :=
  x s

/-- Fail. -/
@[inline] def fail (fault : ε) : Attempt σ ε α := fun s =>
  (.failed fault, s)

/-- Stop before the end. -/
@[inline] def stop : Attempt σ ε α := fun s =>
  (.unfinished, s)

/-- The state. -/
@[inline] def get : Attempt σ ε σ := fun s =>
  (.done s, s)

/-- Change the state. -/
@[inline] def modify (f : σ → σ) : Attempt σ ε Unit := fun s =>
  (.done (), f s)

/-- A value or a fault that needs no state. -/
@[inline] def ofExcept (x : Except ε α) : Attempt σ ε α := fun s =>
  match x with
  | .ok value => (.done value, s)
  | .error fault => (.failed fault, s)

/-- Carry out an activity and then, whether it is done or has failed, change the state. -/
@[inline] def thenAlways (x : Attempt σ ε α) (f : σ → σ) : Attempt σ ε α := fun s =>
  match x s with
  | (.done value, s') => (.done value, f s')
  | (.failed fault, s') => (.failed fault, f s')
  | (.unfinished, s') => (.unfinished, s')

/-- Repeat `body` for as long as `test` holds before it and `body` itself asks to go on, and stop
the activity after `steps` repetitions. -/
def iterate (test body : Attempt σ ε Bool) : Nat → Attempt σ ε Unit
  | 0, s => (.unfinished, s)
  | steps + 1, s =>
    match test s with
    | (.done true, s') =>
      match body s' with
      | (.done true, s'') => iterate test body steps s''
      | (.done false, s'') => (.done (), s'')
      | (.failed fault, s'') => (.failed fault, s'')
      | (.unfinished, s'') => (.unfinished, s'')
    | (.done false, s') => (.done (), s')
    | (.failed fault, s') => (.failed fault, s')
    | (.unfinished, s') => (.unfinished, s')

/-! ## What the operations do to a state -/

@[simp] theorem run_pure (value : α) (s : σ) :
    (pure value : Attempt σ ε α).run s = (.done value, s) := rfl

@[simp] theorem run_bind (x : Attempt σ ε α) (f : α → Attempt σ ε β) (s : σ) :
    (x >>= f).run s = match x.run s with
      | (.done value, s') => (f value).run s'
      | (.failed fault, s') => (.failed fault, s')
      | (.unfinished, s') => (.unfinished, s') := rfl

@[simp] theorem run_fail (fault : ε) (s : σ) :
    (fail fault : Attempt σ ε α).run s = (.failed fault, s) := rfl

@[simp] theorem run_stop (s : σ) : (stop : Attempt σ ε α).run s = (.unfinished, s) := rfl

@[simp] theorem run_get (s : σ) : (get : Attempt σ ε σ).run s = (.done s, s) := rfl

@[simp] theorem run_modify (f : σ → σ) (s : σ) :
    (modify f : Attempt σ ε Unit).run s = (.done (), f s) := rfl

@[simp] theorem run_thenAlways (x : Attempt σ ε α) (f : σ → σ) (s : σ) :
    (x.thenAlways f).run s = match x.run s with
      | (.done value, s') => (.done value, f s')
      | (.failed fault, s') => (.failed fault, f s')
      | (.unfinished, s') => (.unfinished, s') := rfl

instance : LawfulMonad (Attempt σ ε) :=
  LawfulMonad.mk' (Attempt σ ε)
    (fun x => by
      funext s
      change Attempt.bind x Attempt.pure s = x s
      simp only [Attempt.bind, Attempt.pure]
      split <;> simp_all)
    (fun _ _ => rfl)
    (fun x f g => by
      funext s
      change Attempt.bind (Attempt.bind x f) g s = Attempt.bind x (fun a => Attempt.bind (f a) g) s
      simp only [Attempt.bind]
      cases x s with
      | mk result s' => cases result <;> rfl)

end Attempt

end BlockLang
