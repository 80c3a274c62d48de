import BlockLang.Machine.Value
import Mathlib.Tactic.Common

/-!
# The faults of operators

Whatever its operands are, an operator fails in one of three ways, and always on its own line
(`Value.ofOperator_applyUnary`, `Value.ofOperator_applyBinary`).
-/

namespace BlockLang

/-- A fault that the application of an operator on the line may end with. -/
inductive Fault.OfOperator (line : Nat) : Fault → Prop
  | divisionByZero : OfOperator line (.divisionByZero line)
  | integerOverflow (op : String) : OfOperator line (.integerOverflow op line)
  | operandMismatch (op operands : String) : OfOperator line (.operandMismatch op operands line)

namespace Value

variable {fault : Fault} {line : Nat}

lemma ofOperator_exactly {op : String} {n : Int} (h : exactly op line n = .error fault) :
    fault.OfOperator line := by
  rw [exactly] at h
  split at h
  · cases h
  · cases h
    exact .integerOverflow op

lemma ofOperator_unsupported {op : BinOp} {left right : Ty}
    (h : unsupported op left right line = .error fault) : fault.OfOperator line := by
  cases h
  exact .operandMismatch _ _

lemma ofOperator_applyUnary {op : UnaryOp} {v : Value} (h : v.applyUnary op line = .error fault) :
    fault.OfOperator line := by
  unfold applyUnary at h
  split at h
  case h_3 => exact ofOperator_exactly h
  case h_6 =>
    cases h
    exact .operandMismatch _ _
  all_goals cases h

lemma ofOperator_applyInts {op : BinOp} {a b : Int64} (h : applyInts op a b line = .error fault) :
    fault.OfOperator line := by
  cases op with
  | div =>
    rw [applyInts] at h
    split at h
    · cases h
      exact .divisionByZero
    · exact ofOperator_exactly h
  | add | sub | mul => exact ofOperator_exactly h
  | and | or => exact ofOperator_unsupported h
  | _ => cases h

lemma ofOperator_applyFloats {op : BinOp} {a b : Float}
    (h : applyFloats op a b line = .error fault) : fault.OfOperator line := by
  cases op with
  | div =>
    rw [applyFloats] at h
    split at h
    · cases h
      exact .divisionByZero
    · cases h
  | and | or => exact ofOperator_unsupported h
  | _ => cases h

lemma ofOperator_applyChars {op : BinOp} {a b : Char}
    (h : applyChars op a b line = .error fault) : fault.OfOperator line := by
  unfold applyChars at h
  split at h
  case h_7 => exact ofOperator_unsupported h
  all_goals cases h

lemma ofOperator_applyBools {op : BinOp} {a b : Bool}
    (h : applyBools op a b line = .error fault) : fault.OfOperator line := by
  unfold applyBools at h
  split at h
  case h_5 => exact ofOperator_unsupported h
  all_goals cases h

lemma ofOperator_applyBinary {op : BinOp} {left right : Value}
    (h : left.applyBinary op right line = .error fault) : fault.OfOperator line := by
  unfold applyBinary at h
  split at h
  · exact ofOperator_applyInts h
  · exact ofOperator_applyFloats h
  · exact ofOperator_applyChars h
  · exact ofOperator_applyBools h
  · exact ofOperator_unsupported h

end Value

end BlockLang
