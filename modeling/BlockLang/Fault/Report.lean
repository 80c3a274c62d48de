import BlockLang.Fault.Basic
import BlockLang.Json
import BlockLang.Program.Basic

/-!
# Reports

A `Report` is a fault in the form in which tools read it: a stable code, the phase, the wording,
the line and suggestions for a repair.  A `Feedback` is the result of checking one source, as a
JSON document.  A collection of faults is reported as the faults in it, each on its own.
-/

namespace BlockLang

/-- A way to repair a fault. -/
structure Suggestion where
  message : String
  /-- Program text to write instead, if the suggestion has any. -/
  replacement : Option String
  deriving DecidableEq, Repr, Inhabited

/-- A fault as tools read it. -/
structure Report where
  code : String
  phase : Phase
  message : String
  line : Option Nat
  suggestions : List Suggestion
  deriving DecidableEq, Repr, Inhabited

namespace Fault

/-- The code of a fault: its hundreds give the phase. -/
def code : Fault → String
  | illegalCharacter .. => "E101"
  | unterminatedComment .. => "E102"
  | unterminatedChar .. => "E103"
  | unexpectedToken .. => "E201"
  | invalidLiteral .. => "E202"
  | constNotLiteral .. => "E203"
  | missingTypeOrValue .. => "E204"
  | typeErrors .. => "E300"
  | binaryMismatch .. => "E301"
  | unaryMismatch .. => "E302"
  | undefinedName .. => "E303"
  | assignToConst .. => "E304"
  | typeMismatch .. => "E305"
  | conditionNotBool .. => "E306"
  | duplicateDefinition .. => "E307"
  | unknownType .. => "E308"
  | loopControlOutsideLoop .. => "E309"
  | blockWithoutValue .. => "E310"
  | undefinedVariable .. => "E401"
  | divisionByZero .. => "E402"
  | integerOverflow .. => "E403"
  | operandMismatch .. => "E404"
  | noValue .. => "E405"
  | outputFailed .. => "E500"

/-- Whether one of two types is `int` and the other one `float`. -/
def isNumericMix (left right : String) : Bool :=
  (left = "int" && right = "float") || (left = "float" && right = "int")

/-- The definition that makes a name known. -/
def definitionOf (name : String) : Option String :=
  some ("var " ++ name ++ " int;")

/-- The ways to repair a fault. -/
def suggestions : Fault → List Suggestion
  | binaryMismatch _ left right _ =>
    if isNumericMix left right then
      [⟨left ++ " and " ++ right ++ " never mix; write the int operand as a float literal", none⟩]
    else []
  | assignToConst name _ =>
    [⟨"declare '" ++ name ++ "' with var to make it assignable", some ("var " ++ name)⟩]
  | undefinedName name _ | undefinedVariable name _ =>
    [⟨"declare '" ++ name ++ "' before using it", definitionOf name⟩]
  | missingTypeOrValue name _ =>
    [⟨"give the variable a type, an initial value, or both", definitionOf name⟩]
  | unknownType .. => [⟨"use one of int, float, bool, char", none⟩]
  | constNotLiteral name _ => [⟨"use var for '" ++ name ++ "' if it needs a computed value", none⟩]
  | loopControlOutsideLoop .. => [⟨"move the statement inside a while body", none⟩]
  | _ => []

/-- A single fault as a report. -/
def report (fault : Fault) : Report :=
  ⟨fault.code, fault.phase, fault.message, fault.line?, fault.suggestions⟩

mutual

/-- The reports of a fault, of which a collection has one for each fault in it. -/
def reports : Fault → List Report
  | typeErrors faults => reportsOf faults
  | fault => [fault.report]

/-- The reports of a list of faults. -/
def reportsOf : List Fault → List Report
  | [] => []
  | first :: rest => first.reports ++ reportsOf rest

end

theorem reportsOf_eq_flatMap (faults : List Fault) : reportsOf faults = faults.flatMap reports := by
  induction faults with
  | nil => simp [reportsOf]
  | cons first rest ih => simp [reportsOf, ih]

end Fault

/-- A suggestion as a document. -/
def Suggestion.document (suggestion : Suggestion) : Json :=
  .object [("message", .text suggestion.message),
    ("replacement", .option .text suggestion.replacement)]

/-- A report as a document. -/
def Report.document (report : Report) : Json :=
  .object [("code", .text report.code), ("phase", .text report.phase.label),
    ("severity", .text "error"), ("message", .text report.message),
    ("line", .option .nat report.line),
    ("suggestions", .array (report.suggestions.map Suggestion.document))]

/-- The result of checking one source. -/
structure Feedback where
  success : Bool
  /-- The file that the source is from, or a name for a source that is from no file. -/
  sourceName : String
  diagnostics : List Report
  /-- The number of statements on the outermost level of a program without faults. -/
  statements : Option Nat
  deriving DecidableEq, Repr, Inhabited

namespace Feedback

/-- The feedback on a program without faults. -/
def ofProgram (sourceName : String) (program : Program) : Feedback :=
  ⟨true, sourceName, [], some program.body.length⟩

/-- The feedback on a source with a fault. -/
def ofFault (sourceName : String) (fault : Fault) : Feedback :=
  ⟨false, sourceName, fault.reports, none⟩

/-- The feedback as a document. -/
def document (feedback : Feedback) : Json :=
  .object [("success", .bool feedback.success), ("source_file", .text feedback.sourceName),
    ("diagnostics", .array (feedback.diagnostics.map Report.document)),
    ("statements", .option .nat feedback.statements)]

end Feedback

end BlockLang
