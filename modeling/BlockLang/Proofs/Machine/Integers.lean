import BlockLang.Machine.Execution
import Mathlib.Algebra.Group.Int.Defs
import Mathlib.Data.List.Basic
import Mathlib.Tactic.Common

/-!
# Integer expressions

The integers of the language have 64 bits.  An expression over integers has the value that it has
over all integers (`Expr.overInt?`), or else it fails; it never has another value.  It has its value
if and only if each of its nodes, taken by itself, is defined and fits into 64 bits
(`Expr.Bounded`), also if the whole would fit again.  Otherwise the first node that does not, in the
order of evaluation, is the one whose fault is reported (`Machine.eval_integers`).

The order of evaluation is that of `Expr.nodes`: from left to right, an operation behind its
operands.
-/

namespace BlockLang

/-! ## Integers without bounds -/

/-- What a unary operator gives for an integer. -/
def UnaryOp.onInt? : UnaryOp → Int → Option Int
  | .pos, a => some a
  | .neg, a => some (-a)
  | .not, _ => none

/-- What a binary operator gives for two integers, where division goes toward zero. -/
def BinOp.onInt? : BinOp → Int → Int → Option Int
  | .add, a, b => some (a + b)
  | .sub, a, b => some (a - b)
  | .mul, a, b => some (a * b)
  | .div, a, b => if b = 0 then none else some (a.tdiv b)
  | _, _, _ => none

/-- An integer of 64 bits equals `n`. -/
def FitsInt64 (n : Int) : Prop :=
  -2 ^ 63 ≤ n ∧ n < 2 ^ 63

instance (n : Int) : Decidable (FitsInt64 n) :=
  inferInstanceAs (Decidable (_ ∧ _))

namespace Expr

/-- An expression of integers: literals, names that are bound to integers, signs, sums, differences,
products and quotients. -/
inductive IsInteger (env : Environment) : Expr → Prop
  | literal (value : Int64) (line : Nat) : IsInteger env (.literal (.int value line))
  | name {ident : Ident} {kind : BindingKind} {value : Int64}
      (bound : Environment.lookup env ident.name = some ⟨kind, .int value⟩) :
      IsInteger env (.name ident)
  | unary {op : UnaryOp} {operand : Expr} (line : Nat) (sign : op ∈ [.pos, .neg])
      (integer : IsInteger env operand) : IsInteger env (.unary op operand line)
  | binary {op : BinOp} {left right : Expr} (line : Nat)
      (arithmetic : op ∈ [.add, .sub, .mul, .div]) (leftInteger : IsInteger env left)
      (rightInteger : IsInteger env right) : IsInteger env (.binary op left right line)

/-- The value of an expression over all integers.  It has none if something is divided by zero, or
if it is no expression of integers. -/
def overInt? (env : Environment) : Expr → Option Int
  | .literal (.int value _) => some value.toInt
  | .name ident =>
    match Environment.lookup env ident.name with
    | some ⟨_, .int value⟩ => some value.toInt
    | _ => none
  | .unary op operand _ => (operand.overInt? env).bind op.onInt?
  | .binary op left right _ =>
    (left.overInt? env).bind fun a => (right.overInt? env).bind fun b => op.onInt? a b
  | _ => none

/-- The parts of an expression and the expression itself, from left to right and operations behind
their operands. -/
def nodes : Expr → List Expr
  | .unary op operand line => operand.nodes ++ [.unary op operand line]
  | .binary op left right line => left.nodes ++ (right.nodes ++ [.binary op left right line])
  | e => [e]

/-- The expression has a value over all integers, which fits into 64 bits. -/
def Bounded (env : Environment) (e : Expr) : Prop :=
  ∃ n, e.overInt? env = some n ∧ FitsInt64 n

/-- What is wrong with an expression by itself: its divisor is zero, or its value over all integers
does not fit. -/
inductive Offends (env : Environment) : Expr → Fault → Prop
  | division {left right : Expr} {line : Nat} (zero : right.overInt? env = some 0) :
      Offends env (.binary .div left right line) (.divisionByZero line)
  | unary {op : UnaryOp} {operand : Expr} {line : Nat} {n : Int}
      (value : (Expr.unary op operand line).overInt? env = some n) (outside : ¬ FitsInt64 n) :
      Offends env (.unary op operand line) (.integerOverflow op.symbol line)
  | binary {op : BinOp} {left right : Expr} {line : Nat} {n : Int}
      (value : (Expr.binary op left right line).overInt? env = some n) (outside : ¬ FitsInt64 n) :
      Offends env (.binary op left right line) (.integerOverflow op.symbol line)

variable {env : Environment} {e : Expr} {fault fault' : Fault}

instance : Decidable (e.Bounded env) :=
  match h : e.overInt? env with
  | none => isFalse fun ⟨_, hn, _⟩ => by cases h.symm.trans hn
  | some n => decidable_of_iff (FitsInt64 n) ⟨fun fits => ⟨n, h, fits⟩, fun ⟨_, hn, fits⟩ => by
      cases h.symm.trans hn
      exact fits⟩

/-- The first node, in the order of evaluation, that has no value or one that does not fit. -/
def firstUnbounded? (env : Environment) (e : Expr) : Option Expr :=
  e.nodes.find? fun node => ¬ node.Bounded env

/-! ## The first node that is not bounded -/

lemma bounded_of_toInt {value : Int64} (h : e.overInt? env = some value.toInt) : e.Bounded env :=
  ⟨value.toInt, h, Int64.le_toInt value, Int64.toInt_lt value⟩

/-- A quotient by zero has no value. -/
lemma overInt?_of_zero_divisor {left right : Expr} (line : Nat)
    (zero : right.overInt? env = some 0) :
    (Expr.binary .div left right line).overInt? env = none := by
  cases hleft : left.overInt? env <;> simp [overInt?, hleft, zero, BinOp.onInt?]

lemma Offends.not_bounded (h : e.Offends env fault) : ¬ e.Bounded env := by
  rintro ⟨n, hn, fits⟩
  cases h with
  | division zero => cases hn.symm.trans (overInt?_of_zero_divisor _ zero)
  | unary value outside =>
    cases value.symm.trans hn
    exact outside fits
  | binary value outside =>
    cases value.symm.trans hn
    exact outside fits

/-- An expression has one fault by itself. -/
lemma Offends.unique (h : e.Offends env fault) (h' : e.Offends env fault') : fault = fault' := by
  cases h with
  | division zero =>
    cases h' with
    | division _ => rfl
    | binary value _ => cases value.symm.trans (overInt?_of_zero_divisor _ zero)
  | unary _ _ =>
    cases h' with
    | unary _ _ => rfl
  | binary value _ =>
    cases h' with
    | division zero => cases value.symm.trans (overInt?_of_zero_divisor _ zero)
    | binary _ _ => rfl

lemma firstUnbounded?_eq_none_iff :
    e.firstUnbounded? env = none ↔ ∀ node ∈ e.nodes, node.Bounded env := by
  simp [firstUnbounded?]

lemma firstUnbounded?_leaf (hnodes : e.nodes = [e]) (bounded : e.Bounded env) :
    e.firstUnbounded? env = none := by
  simp [firstUnbounded?, hnodes, bounded]

lemma firstUnbounded?_unary (env : Environment) (op : UnaryOp) (operand : Expr) (line : Nat) :
    (Expr.unary op operand line).firstUnbounded? env =
      (operand.firstUnbounded? env).or
        (if (Expr.unary op operand line).Bounded env then none
          else some (.unary op operand line)) := by
  rw [firstUnbounded?, nodes, List.find?_append, ← firstUnbounded?, List.find?_singleton]
  simp only [decide_not, Bool.not_eq_true', decide_eq_false_iff_not, ite_not]

lemma firstUnbounded?_binary (env : Environment) (op : BinOp) (left right : Expr) (line : Nat) :
    (Expr.binary op left right line).firstUnbounded? env =
      (left.firstUnbounded? env).or ((right.firstUnbounded? env).or
        (if (Expr.binary op left right line).Bounded env then none
          else some (.binary op left right line))) := by
  rw [firstUnbounded?, nodes, List.find?_append, List.find?_append, ← firstUnbounded?,
    ← firstUnbounded?, List.find?_singleton]
  simp only [decide_not, Bool.not_eq_true', decide_eq_false_iff_not, ite_not]

/-- How an evaluation ends: with the value over all integers if all nodes are bounded, and otherwise
with the fault of the first node that is not. -/
def Decided (env : Environment) (e : Expr) : Outcome Fault Value → Prop
  | .done v =>
    e.firstUnbounded? env = none ∧ ∃ i : Int64, v = .int i ∧ e.overInt? env = some i.toInt
  | .failed fault => ∃ node, e.firstUnbounded? env = some node ∧ node.Offends env fault
  | .unfinished => False

lemma Decided.unique {outcome outcome' : Outcome Fault Value} (h : e.Decided env outcome)
    (h' : e.Decided env outcome') : outcome = outcome' := by
  cases outcome with
  | unfinished => exact h.elim
  | done v =>
    obtain ⟨hfirst, i, rfl, hvalue⟩ := h
    cases outcome' with
    | unfinished => exact h'.elim
    | done v' =>
      obtain ⟨-, i', rfl, hvalue'⟩ := h'
      rw [Int64.toInt_inj.mp (Option.some.inj (hvalue.symm.trans hvalue'))]
    | failed fault =>
      obtain ⟨node, hfirst', -⟩ := h'
      cases hfirst.symm.trans hfirst'
  | failed fault =>
    obtain ⟨node, hfirst, offends⟩ := h
    cases outcome' with
    | unfinished => exact h'.elim
    | done v' => cases h'.1.symm.trans hfirst
    | failed fault' =>
      obtain ⟨node', hfirst', offends'⟩ := h'
      obtain rfl : node = node' := Option.some.inj (hfirst.symm.trans hfirst')
      rw [offends.unique offends']

end Expr

/-! ## Operators on integers of 64 bits -/

namespace Value

/-- An exact result is delivered if it fits, and is a fault otherwise. -/
lemma exactly_cases (op : String) (line : Nat) (n : Int) :
    (∃ i : Int64, i.toInt = n ∧ exactly op line n = .ok (.int i)) ∨
      (¬ FitsInt64 n ∧ exactly op line n = .error (.integerOverflow op line)) := by
  rw [exactly]
  cases hn : ofInt? n with
  | some i => exact .inl ⟨i, toInt_of_ofInt? hn, rfl⟩
  | none =>
    refine .inr ⟨fun fits => ?_, rfl⟩
    have hsome : (ofInt? n).isSome = true :=
      ofInt?_isSome.mpr ⟨fits.1, Int.le_sub_one_of_lt fits.2⟩
    rw [hn] at hsome
    cases hsome

lemma exactly_toInt (op : String) (line : Nat) (i : Int64) :
    exactly op line i.toInt = .ok (.int i) := by
  rcases exactly_cases op line i.toInt with ⟨i', hi, hok⟩ | ⟨outside, -⟩
  · rw [hok, Int64.toInt_inj.mp hi]
  · exact absurd ⟨Int64.le_toInt i, Int64.toInt_lt i⟩ outside

/-- A sign gives the exact result. -/
lemma applyUnary_int {op : UnaryOp} (sign : op ∈ [.pos, .neg]) (a : Int64) (line : Nat) :
    ∃ n, op.onInt? a.toInt = some n ∧
      (int a).applyUnary op line = exactly op.symbol line n := by
  simp only [List.mem_cons, List.not_mem_nil, or_false] at sign
  obtain rfl | rfl := sign
  · exact ⟨a.toInt, rfl, (exactly_toInt _ line a).symm⟩
  · exact ⟨-a.toInt, rfl, rfl⟩

/-- An operation gives the exact result, but for a division by zero. -/
lemma applyBinary_int {op : BinOp} (arithmetic : op ∈ [.add, .sub, .mul, .div]) (a b : Int64)
    (line : Nat) :
    (∃ n, op.onInt? a.toInt b.toInt = some n ∧
      (int a).applyBinary op (int b) line = exactly op.symbol line n) ∨
    (op = .div ∧ b.toInt = 0 ∧
      (int a).applyBinary op (int b) line = .error (.divisionByZero line)) := by
  simp only [List.mem_cons, List.not_mem_nil, or_false] at arithmetic
  obtain rfl | rfl | rfl | rfl := arithmetic
  · exact .inl ⟨_, rfl, rfl⟩
  · exact .inl ⟨_, rfl, rfl⟩
  · exact .inl ⟨_, rfl, rfl⟩
  · rw [applyBinary, applyInts]
    by_cases hb : b = 0
    · subst hb
      exact .inr ⟨rfl, rfl, rfl⟩
    · have hb' : b.toInt ≠ 0 := fun h => hb (Int64.toInt_inj.mp h)
      rw [if_neg hb]
      exact .inl ⟨a.toInt.tdiv b.toInt, if_neg hb', rfl⟩

end Value

/-! ## Evaluation -/

namespace Machine

open BlockLang.Expr

variable {σ : Type} [Sink σ] {env : Environment} {e : Expr}

/-- An operator whose operands have been evaluated decides the expression that it stands in. -/
lemma decided_of_result {n : Int} {op : String} {line : Nat} {result : Except Fault Value}
    (value : e.overInt? env = some n) (hresult : result = Value.exactly op line n)
    (first : e.firstUnbounded? env = if e.Bounded env then none else some e)
    (offends : ¬ FitsInt64 n → e.Offends env (.integerOverflow op line)) :
    e.Decided env (Outcome.ofExcept result) := by
  subst hresult
  rcases Value.exactly_cases op line n with ⟨i, rfl, hok⟩ | ⟨outside, herror⟩
  · rw [hok]
    rw [if_pos (bounded_of_toInt value)] at first
    exact ⟨first, i, rfl, value⟩
  · rw [herror]
    rw [if_neg (offends outside).not_bounded] at first
    exact ⟨e, first, offends outside⟩

omit [Sink σ] in
lemma run_ofExcept {α : Type} (result : Except Fault α) (m : Machine σ) :
    (Attempt.ofExcept result : Running σ α).run m = (Outcome.ofExcept result, m) := by
  cases result <;> rfl

/-- The evaluation of an integer expression is decided and leaves the machine as it is. -/
lemma eval_decided {m : Machine σ} (integer : e.IsInteger m.env) (bound : Nat) :
    ∃ outcome, (eval bound e).run m = (outcome, m) ∧ e.Decided m.env outcome := by
  induction integer with
  | literal value line =>
    rw [eval]
    exact ⟨_, rfl, firstUnbounded?_leaf rfl (bounded_of_toInt rfl), value, rfl, rfl⟩
  | @name ident kind value hbound =>
    have hvalue : (Expr.name ident).overInt? m.env = some value.toInt := by
      rw [overInt?, hbound]
    refine ⟨.done (.int value), ?_, firstUnbounded?_leaf rfl (bounded_of_toInt hvalue), value, rfl,
      hvalue⟩
    rw [eval, Attempt.run, lookup, hbound]
  | @unary op operand line sign _ ih =>
    obtain ⟨outcome, hrun, decided⟩ := ih
    rw [eval, Attempt.run_bind, hrun]
    cases outcome with
    | unfinished => exact decided.elim
    | failed fault =>
      obtain ⟨node, hfirst, offends⟩ := decided
      refine ⟨.failed fault, rfl, node, ?_, offends⟩
      rw [firstUnbounded?_unary, hfirst, Option.some_or]
    | done v =>
      obtain ⟨hfirst, a, rfl, ha⟩ := decided
      obtain ⟨n, hn, hresult⟩ := Value.applyUnary_int sign a line
      have hvalue : (Expr.unary op operand line).overInt? m.env = some n := by
        rw [overInt?, ha, Option.bind_some, hn]
      refine ⟨_, run_ofExcept _ m, decided_of_result hvalue hresult ?_ (.unary hvalue)⟩
      rw [firstUnbounded?_unary, hfirst, Option.none_or]
  | @binary op left right line arithmetic _ _ ihLeft ihRight =>
    obtain ⟨leftOutcome, hleftRun, leftDecided⟩ := ihLeft
    obtain ⟨rightOutcome, hrightRun, rightDecided⟩ := ihRight
    rw [eval, Attempt.run_bind, hleftRun]
    cases leftOutcome with
    | unfinished => exact leftDecided.elim
    | failed fault =>
      obtain ⟨node, hfirst, offends⟩ := leftDecided
      refine ⟨.failed fault, rfl, node, ?_, offends⟩
      rw [firstUnbounded?_binary, hfirst, Option.some_or]
    | done v =>
      obtain ⟨hleftFirst, a, rfl, ha⟩ := leftDecided
      simp only [Attempt.run_bind, hrightRun]
      cases rightOutcome with
      | unfinished => exact rightDecided.elim
      | failed fault =>
        obtain ⟨node, hfirst, offends⟩ := rightDecided
        refine ⟨.failed fault, rfl, node, ?_, offends⟩
        rw [firstUnbounded?_binary, hleftFirst, hfirst, Option.none_or, Option.some_or]
      | done v =>
        obtain ⟨hrightFirst, b, rfl, hb⟩ := rightDecided
        have first := firstUnbounded?_binary m.env op left right line
        rw [hleftFirst, hrightFirst, Option.none_or, Option.none_or] at first
        have hvalue : (Expr.binary op left right line).overInt? m.env =
            op.onInt? a.toInt b.toInt := by
          rw [overInt?, ha, hb, Option.bind_some, Option.bind_some]
        refine ⟨_, run_ofExcept _ m, ?_⟩
        rcases Value.applyBinary_int arithmetic a b line with
          ⟨n, hn, hresult⟩ | ⟨rfl, hzero, hresult⟩
        · rw [hn] at hvalue
          exact decided_of_result hvalue hresult first (.binary hvalue)
        · -- The divisor is zero, so that the quotient itself is the first node without a value.
          have offends : (Expr.binary .div left right line).Offends m.env (.divisionByZero line) :=
            .division (by rw [hb, hzero])
          rw [if_neg offends.not_bounded] at first
          rw [hresult]
          exact ⟨_, first, offends⟩

/-- An expression of integers has a value if and only if each of its nodes has a value over all
integers that fits into 64 bits, and the value is then the one over all integers.  Otherwise it
fails with the fault of the first node, in the order of evaluation, for which this is not so. -/
theorem eval_integers {m : Machine σ} (integer : e.IsInteger m.env) (bound : Nat) :
    (∀ (v : Value) (m' : Machine σ), (eval bound e).run m = (.done v, m') ↔
      (∀ node ∈ e.nodes, node.Bounded m.env) ∧
        (∃ i : Int64, v = .int i ∧ e.overInt? m.env = some i.toInt) ∧ m' = m) ∧
    (∀ (fault : Fault) (m' : Machine σ), (eval bound e).run m = (.failed fault, m') ↔
      (∃ node, e.firstUnbounded? m.env = some node ∧ node.Offends m.env fault) ∧ m' = m) ∧
    ((eval bound e).run m).1.isFinished = true := by
  obtain ⟨outcome, hrun, decided⟩ := eval_decided integer bound
  refine ⟨fun v m' => ?_, fun fault m' => ?_, ?_⟩
  · rw [hrun, Prod.mk.injEq, ← firstUnbounded?_eq_none_iff]
    constructor
    · rintro ⟨rfl, rfl⟩
      exact ⟨decided.1, decided.2, rfl⟩
    · rintro ⟨hfirst, hvalue, hm⟩
      have hdone : e.Decided m.env (.done v) := ⟨hfirst, hvalue⟩
      exact ⟨decided.unique hdone, hm.symm⟩
  · rw [hrun, Prod.mk.injEq]
    constructor
    · rintro ⟨rfl, rfl⟩
      exact ⟨decided, rfl⟩
    · rintro ⟨hnode, hm⟩
      have hfailed : e.Decided m.env (.failed fault) := hnode
      exact ⟨decided.unique hfailed, hm.symm⟩
  · rw [hrun]
    cases outcome with
    | unfinished => exact decided.elim
    | _ => rfl

/-- `(-9223372036854775807 - x) / -1 + 1 / 0` on two lines, where `x` is one: the first quotient
does not fit, and the division by zero behind it is not come to. -/
theorem eval_integers_two_offences :
    ∃ (e : Expr) (m : Machine Buffer), e.IsInteger m.env ∧
      (eval 0 e).run m = (.failed (.integerOverflow "/" 1), m) := by
  have integer : (Expr.binary .add
      (.binary .div
        (.binary .sub (.unary .neg (.literal (.int 9223372036854775807 1)) 1) (.name ⟨"x", 1⟩) 1)
        (.unary .neg (.literal (.int 1 1)) 1) 1)
      (.binary .div (.literal (.int 1 2)) (.literal (.int 0 2)) 2) 1).IsInteger
        (Environment.define .root "x" .var (.int 1)) :=
    .binary 1 (by decide)
      (.binary 1 (by decide)
        (.binary 1 (by decide) (.unary 1 (by decide) (.literal _ 1)) (.name rfl))
        (.unary 1 (by decide) (.literal _ 1)))
      (.binary 2 (by decide) (.literal _ 2) (.literal _ 2))
  refine ⟨_, ⟨_, Buffer.unbounded⟩, integer, ?_⟩
  refine ((eval_integers (m := ⟨_, Buffer.unbounded⟩) integer 0).2.1 _ _).mpr
    ⟨⟨_, rfl, .binary (n := 9223372036854775808) rfl (by decide)⟩, rfl⟩

end Machine

end BlockLang
