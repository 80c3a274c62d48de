import BlockLang.Typing.TypeChecker
import Mathlib.Tactic.Common

/-!
# The rules of single nodes

A rule that has been told the types it needs does one of two things: it gives its answer, or it
reports one fault and gives its answer then (`TypeChecker.Judges`).  For each rule there is a lemma
that says which fault this can be.  What holds of answers and of reports therefore holds of the
rules, and nobody else has to take them apart.
-/

namespace BlockLang

namespace TypeChecker

variable {α : Type} {P : Fault → Prop}

/-- The activity gives an answer, at most behind a fault with the property. -/
inductive Judges (P : Fault → Prop) : Checking α → Prop
  | answer (a : α) : Judges P (pure a)
  | objection {fault : Fault} (h : P fault) (a : α) : Judges P (report fault >>= fun _ => pure a)

/-- A report is its own answer. -/
lemma judges_report {fault : Fault} (h : P fault) : Judges P (report fault) :=
  Judges.objection h ()

lemma judges_unaryType (op : UnaryOp) (operand : Option Ty) (line : Nat) :
    Judges (fun fault => ∃ ty : Ty, fault = .unaryMismatch op.symbol ty.name line)
      (unaryType op operand line) := by
  unfold unaryType
  split
  · exact .answer none
  · split
    · exact .answer _
    · exact .objection ⟨_, rfl⟩ none

lemma judges_binaryType (op : BinOp) (left right : Option Ty) (line : Nat) :
    Judges (fun fault => ∃ left right : Ty,
        fault = .binaryMismatch op.symbol left.name right.name line)
      (binaryType op left right line) := by
  unfold binaryType
  split
  · split
    · exact .answer _
    · exact .objection ⟨_, _, rfl⟩ none
  · exact .answer none

lemma judges_declaredType (declared : Option Ident) :
    Judges (fun fault => ∃ ident ∈ declared.toList, fault = .unknownType ident.name ident.line)
      (declaredType declared) := by
  unfold declaredType
  split
  · exact .answer none
  · next ident =>
    split
    · exact .answer _
    · exact .objection ⟨ident, List.mem_cons_self, rfl⟩ none

/-- A definition compares the declared type with that of the value. -/
lemma exists_definitionType_eq (name : Ident) (declared : Option Ident) (value : Option Ty)
    (line : Nat) : ∃ rest : Option Ty → Checking (Option Ty),
      definitionType name declared value line = declaredType declared >>= rest ∧
        ∀ ty, Judges (fun fault => ∃ expected got : Ty,
          fault = .typeMismatch name.name expected.name got.name line) (rest ty) := by
  refine ⟨_, rfl, fun ty => ?_⟩
  split
  · exact .answer value
  · exact .answer none
  · split
    · split
      · exact .objection ⟨_, _, rfl⟩ _
      · exact .answer _
    · exact .answer _

/-- An assignment to a variable compares its type with that of the value. -/
lemma exists_assignment_eq (target : Ident) (value : Option Ty) (line : Nat) :
    ∃ rest : Option Symbol → Checking Unit,
      assignment target value line = lookup target.name >>= rest ∧
        rest none = report (.undefinedName target.name line) ∧
        ∀ symbol : Symbol,
          (symbol.kind = .const →
            rest (some symbol) = report (.assignToConst target.name line)) ∧
          (symbol.kind = .var → Judges (fun fault => ∃ expected got : Ty,
            fault = .typeMismatch target.name expected.name got.name line)
            (rest (some symbol))) := by
  refine ⟨_, rfl, rfl, fun symbol => ⟨fun hconst => ?_, fun hvar => ?_⟩⟩
  · simp only [hconst]
  · simp only [hvar]
    split
    · split
      · exact judges_report ⟨_, _, rfl⟩
      · exact .answer ()
    · exact .answer ()

lemma judges_condition (construct : String) (test : Option Ty) (line : Nat) :
    Judges (fun fault => ∃ ty : Ty, fault = .conditionNotBool construct ty.name line)
      (condition construct test line) := by
  unfold condition
  split
  · exact .answer ()
  · exact .answer ()
  · exact judges_report ⟨_, rfl⟩

end TypeChecker

end BlockLang
