import BlockLang.Proofs.Machine.Endings
import BlockLang.Proofs.Typing.Rules

/-!
# How the activities of a checked program end

A run may be stopped by a fault even if its types are right: a division by zero, an integer that
does not fit, an output that is refused.  These faults are the `Fault.Tolerable` ones.

`Machine.Yields x m Post` says how the activity `x` ends that begins in the state `m`: with a value
and a state of which `Post` holds, or with a tolerable fault, or not at all.  This is `Attempt.Ends`
with the tolerable faults as those that are allowed (`yields_iff_ends`), and has its rules for the
ways in which activities are put together (`yields_bind`, `yields_inFrame`, `yields_iterate`).
`Value.Delivers` is the same for the operators.
-/

namespace BlockLang

/-- The faults that a program may end with although its types are right. -/
inductive Fault.Tolerable : Fault → Prop
  | divisionByZero (line : Nat) : Tolerable (.divisionByZero line)
  | integerOverflow (op : String) (line : Nat) : Tolerable (.integerOverflow op line)
  | outputFailed (reason : String) : Tolerable (.outputFailed reason)

/-! ## Operators -/

namespace Value

/-- An operation ends with a value of the type `ty` or with a tolerable fault. -/
def Delivers (result : Except Fault Value) (ty : Ty) : Prop :=
  match result with
  | .ok value => value.ty = ty
  | .error fault => fault.Tolerable

lemma delivers_exactly (op : String) (line : Nat) (n : Int) :
    Delivers (exactly op line n) .int := by
  rw [exactly]
  cases ofInt? n with
  | none => exact .integerOverflow op line
  | some v => rfl

/-- A unary operator that the table has for the type of its operand delivers what the table
says. -/
lemma delivers_applyUnary {op : UnaryOp} {ty result : Ty} {v : Value}
    (row : ⟨op, ty, result⟩ ∈ Ty.unaryTable) (hv : v.ty = ty) (line : Nat) :
    Delivers (v.applyUnary op line) result := by
  subst hv
  simp only [Ty.unaryTable, List.mem_cons, Ty.UnaryRow.mk.injEq, List.not_mem_nil, or_false] at row
  obtain ⟨rfl, hty, rfl⟩ | ⟨rfl, hty, rfl⟩ | ⟨rfl, hty, rfl⟩ | ⟨rfl, hty, rfl⟩ | ⟨rfl, hty, rfl⟩ :=
    row <;> cases v <;> cases hty
  · rfl
  · exact delivers_exactly _ line _
  · rfl
  · rfl
  · rfl

lemma delivers_applyInts {op : BinOp} {result : Ty}
    (row : ⟨op, .int, .int, result⟩ ∈ Ty.binaryTable) (a b : Int64) (line : Nat) :
    Delivers (applyInts op a b line) result := by
  have hresult := Ty.ofBinary?_eq_some_iff.mpr row
  cases op <;> cases hresult
  case add => exact delivers_exactly _ line _
  case sub => exact delivers_exactly _ line _
  case mul => exact delivers_exactly _ line _
  case div =>
    rw [applyInts]
    split
    · exact .divisionByZero line
    · exact delivers_exactly _ line _
  all_goals rfl

lemma delivers_applyFloats {op : BinOp} {result : Ty}
    (row : ⟨op, .float, .float, result⟩ ∈ Ty.binaryTable) (a b : Float) (line : Nat) :
    Delivers (applyFloats op a b line) result := by
  have hresult := Ty.ofBinary?_eq_some_iff.mpr row
  cases op <;> cases hresult
  case div =>
    rw [applyFloats]
    split
    · exact .divisionByZero line
    · rfl
  all_goals rfl

lemma delivers_applyChars {op : BinOp} {result : Ty}
    (row : ⟨op, .char, .char, result⟩ ∈ Ty.binaryTable) (a b : Char) (line : Nat) :
    Delivers (applyChars op a b line) result := by
  have hresult := Ty.ofBinary?_eq_some_iff.mpr row
  cases op <;> cases hresult <;> rfl

lemma delivers_applyBools {op : BinOp} {result : Ty}
    (row : ⟨op, .bool, .bool, result⟩ ∈ Ty.binaryTable) (a b : Bool) (line : Nat) :
    Delivers (applyBools op a b line) result := by
  have hresult := Ty.ofBinary?_eq_some_iff.mpr row
  cases op <;> cases hresult <;> rfl

/-- A binary operator that the table has for the types of its operands delivers what the table
says. -/
lemma delivers_applyBinary {op : BinOp} {leftTy rightTy result : Ty} {left right : Value}
    (row : ⟨op, leftTy, rightTy, result⟩ ∈ Ty.binaryTable) (hleft : left.ty = leftTy)
    (hright : right.ty = rightTy) (line : Nat) :
    Delivers (left.applyBinary op right line) result := by
  have hsame : leftTy = rightTy := Ty.eq_of_ofBinary? (Ty.ofBinary?_eq_some_iff.mpr row)
  subst hleft hright
  cases left <;> cases right <;> cases hsame
  case int.int.refl a b => exact delivers_applyInts row a b line
  case float.float.refl a b => exact delivers_applyFloats row a b line
  case bool.bool.refl a b => exact delivers_applyBools row a b line
  case char.char.refl a b => exact delivers_applyChars row a b line

end Value

namespace Machine

open Attempt (Ends ends_bind ends_iterate)

variable {σ α β : Type} {x : Running σ α} {f : α → Running σ β} {m : Machine σ}

/-! ## Activities -/

/-- From `m` the activity ends with a value and a state of which `Post` holds, or with a tolerable
fault, or not at all. -/
def Yields (x : Running σ α) (m : Machine σ) (Post : α → Machine σ → Prop) : Prop :=
  match x.run m with
  | (.done a, m') => Post a m'
  | (.failed fault, _) => fault.Tolerable
  | (.unfinished, _) => True

section Yields

variable {Post Post' : α → Machine σ → Prop}

lemma yields_iff_ends : Yields x m Post ↔ Ends Fault.Tolerable x m Post := by
  unfold Yields Ends
  obtain ⟨outcome, m'⟩ := x.run m
  cases outcome <;> rfl

lemma Yields.of_done {a : α} {m' : Machine σ} (h : Yields x m Post)
    (hrun : x.run m = (.done a, m')) : Post a m' :=
  (yields_iff_ends.mp h).of_done hrun

/-- What holds behind an activity may be weakened. -/
lemma Yields.mono (h : Yields x m Post) (hpost : ∀ a m', Post a m' → Post' a m') :
    Yields x m Post' :=
  yields_iff_ends.mpr ((yields_iff_ends.mp h).mono hpost)

@[simp] lemma yields_pure {a : α} : Yields (pure a) m Post ↔ Post a m :=
  Iff.rfl

@[simp] lemma yields_modify {g : Machine σ → Machine σ} {Post : Unit → Machine σ → Prop} :
    Yields (Attempt.modify g) m Post ↔ Post () (g m) :=
  Iff.rfl

/-- Behind the first of two activities the second one has to end as it should. -/
@[simp] lemma yields_bind {Post : β → Machine σ → Prop} :
    Yields (x >>= f) m Post ↔ Yields x m fun a m' => Yields (f a) m' Post := by
  simp only [yields_iff_ends, ends_bind]

lemma yields_ofExcept {result : Except Fault Value} {ty : Ty} (h : Value.Delivers result ty) :
    Yields (Attempt.ofExcept result) m fun v m' => v.ty = ty ∧ m' = m := by
  cases result with
  | ok v => exact ⟨h, rfl⟩
  | error fault => exact h

/-- An activity in a frame of its own. -/
lemma yields_inFrame
    (h : Yields x ⟨m.env.enter, m.out⟩ fun a m' => Post a ⟨Environment.exit m'.env, m'.out⟩) :
    Yields (inFrame x) m Post :=
  yields_iff_ends.mpr (ends_inFrame (yields_iff_ends.mp h))

/-- What the test and the body of a loop keep is kept by any number of repetitions. -/
lemma yields_iterate {test body : Running σ Bool} (Inv : Machine σ → Prop)
    (htest : ∀ m, Inv m → Yields test m fun _ m' => Inv m')
    (hbody : ∀ m, Inv m → Yields body m fun _ m' => Inv m') (steps : Nat) {m : Machine σ}
    (hm : Inv m) : Yields (Attempt.iterate test body steps) m fun _ m' => Inv m' :=
  yields_iff_ends.mpr (ends_iterate Inv (fun m hm => yields_iff_ends.mp (htest m hm))
    (fun m hm => yields_iff_ends.mp (hbody m hm)) steps hm)

/-- Writing to a sink leaves the environment as it is. -/
lemma yields_output (operation : σ → Option String × σ) :
    Yields (output operation) m fun _ m' => m'.env = m.env :=
  yields_iff_ends.mpr (ends_output .outputFailed operation)

end Yields

end Machine

end BlockLang
