import BlockLang.Text.Quoted

/-!
# Faults

Everything that can be wrong with a program, from a stray character to a division by zero at run
time.  A `Fault` is a cause with the data needed to describe it: `Fault.message` is its wording,
`Fault.line?` the line it points at and `Fault.phase` the stage of processing that finds it.

The words inside a fault (operators, types, constructs) are kept as text, because a diagnostic
only shows them.
-/

namespace BlockLang

/-- The stages that find faults. -/
inductive Phase
  | lexical | syntactic | typing | runtime | output
  deriving DecidableEq, Repr, Inhabited

/-- The name of a phase in a report. -/
def Phase.label : Phase → String
  | lexical => "lexical"
  | syntactic => "syntax"
  | typing => "type"
  | runtime => "runtime"
  | output => "io"

/-- The causes for which a program is refused or stopped. -/
inductive Fault
  /-- No token starts with this character. -/
  | illegalCharacter (ch : Char) (line : Nat)
  /-- A block comment opened on this line is never closed. -/
  | unterminatedComment (line : Nat)
  /-- A character constant is empty or lacks its closing quote. -/
  | unterminatedChar (line : Nat)
  /-- The grammar asks for something else at this token. -/
  | unexpectedToken (expected got : String) (line : Nat)
  /-- A literal has no value, such as an integer that is too large. -/
  | invalidLiteral (kind text : String) (line : Nat)
  /-- A constant is defined from an expression that is no literal. -/
  | constNotLiteral (name : String) (line : Nat)
  /-- A variable has neither a type nor an initial value. -/
  | missingTypeOrValue (name : String) (line : Nat)
  /-- The operator does not take operands of these two types. -/
  | binaryMismatch (op left right : String) (line : Nat)
  /-- The operator does not take an operand of this type. -/
  | unaryMismatch (op operand : String) (line : Nat)
  /-- No scope around this use defines the name. -/
  | undefinedName (name : String) (line : Nat)
  /-- An assignment to a constant. -/
  | assignToConst (name : String) (line : Nat)
  /-- A name receives a value of another type than its own. -/
  | typeMismatch (name expected got : String) (line : Nat)
  /-- The test of an `if` or a `while` is not a truth value. -/
  | conditionNotBool (construct got : String) (line : Nat)
  /-- The scope has a definition of this name already. -/
  | duplicateDefinition (name : String) (line : Nat)
  /-- A declared type is not one of the four types. -/
  | unknownType (name : String) (line : Nat)
  /-- A `break` or `continue` that no loop surrounds. -/
  | loopControlOutsideLoop (keyword : String) (line : Nat)
  /-- A block stands for a value and does not end with an expression. -/
  | blockWithoutValue (line : Nat)
  /-- All faults of typing in one program, in the order in which they were found. -/
  | typeErrors (faults : List Fault)
  /-- A name is used at run time that no frame binds. -/
  | undefinedVariable (name : String) (line : Nat)
  /-- A division by an integer zero or a float zero. -/
  | divisionByZero (line : Nat)
  /-- The exact result of an integer operation does not fit. -/
  | integerOverflow (op : String) (line : Nat)
  /-- An operation meets values that it has no rule for. -/
  | operandMismatch (op operands : String) (line : Nat)
  /-- A block that stands for a value ended without one. -/
  | noValue (what : String) (line : Nat)
  /-- The device that takes the output refused it. -/
  | outputFailed (reason : String)
  deriving Repr, Inhabited

namespace Fault

/-- The wording of a fault behind its line. -/
def atLine (line : Nat) (text : String) : String :=
  "line " ++ toString line ++ ": " ++ text

/-- The wording of a fault. -/
def message : Fault → String
  | illegalCharacter ch line => atLine line ("illegal character " ++ Text.quotedChar ch)
  | unterminatedComment line => atLine line "unterminated comment"
  | unterminatedChar line => atLine line "unterminated character constant"
  | unexpectedToken expected got line =>
    atLine line ("unexpected token " ++ Text.quoted got ++ ", expected " ++ expected)
  | invalidLiteral kind text line =>
    atLine line ("invalid " ++ kind ++ " literal " ++ Text.quoted text)
  | constNotLiteral name line =>
    atLine line ("constant '" ++ name ++ "' must be defined from a literal")
  | missingTypeOrValue name line =>
    atLine line ("variable '" ++ name ++ "' needs a type or an initial value")
  | binaryMismatch op left right line =>
    atLine line ("type error: " ++ left ++ " " ++ op ++ " " ++ right ++ " is not supported")
  | unaryMismatch op operand line =>
    atLine line ("type error: unary " ++ op ++ " is not supported for " ++ operand)
  | undefinedName name line => atLine line ("undefined name '" ++ name ++ "'")
  | assignToConst name line => atLine line ("cannot assign to constant '" ++ name ++ "'")
  | typeMismatch name expected got line =>
    atLine line ("type mismatch for '" ++ name ++ "': expected " ++ expected ++ ", got " ++ got)
  | conditionNotBool construct got line =>
    atLine line (construct ++ " condition must be bool, got " ++ got)
  | duplicateDefinition name line =>
    atLine line ("'" ++ name ++ "' is already defined in this scope")
  | unknownType name line => atLine line ("unknown type '" ++ name ++ "'")
  | loopControlOutsideLoop keyword line =>
    atLine line ("'" ++ keyword ++ "' outside of a while loop")
  | blockWithoutValue line => atLine line "block expression must end with an expression"
  | typeErrors faults => toString faults.length ++ " type error(s) found"
  | undefinedVariable name line =>
    atLine line ("runtime error: '" ++ name ++ "' is not defined")
  | divisionByZero line => atLine line "runtime error: division by zero"
  | integerOverflow op line => atLine line ("runtime error: integer overflow in " ++ op)
  | operandMismatch op operands line =>
    atLine line ("runtime error: cannot apply " ++ op ++ " to " ++ operands)
  | noValue what line => atLine line ("runtime error: " ++ what ++ " produced no value")
  | outputFailed reason => "IO error: " ++ reason

/-- The line that a fault points at.  A collection points where its first fault does, and a
failing output device points nowhere. -/
def line? : Fault → Option Nat
  | illegalCharacter _ line
  | unterminatedComment line
  | unterminatedChar line
  | unexpectedToken _ _ line
  | invalidLiteral _ _ line
  | constNotLiteral _ line
  | missingTypeOrValue _ line
  | binaryMismatch _ _ _ line
  | unaryMismatch _ _ line
  | undefinedName _ line
  | assignToConst _ line
  | typeMismatch _ _ _ line
  | conditionNotBool _ _ line
  | duplicateDefinition _ line
  | unknownType _ line
  | loopControlOutsideLoop _ line
  | blockWithoutValue line
  | undefinedVariable _ line
  | divisionByZero line
  | integerOverflow _ line
  | operandMismatch _ _ line
  | noValue _ line => some line
  | typeErrors [] => none
  | typeErrors (first :: _) => first.line?
  | outputFailed _ => none

/-- The stage that finds a fault. -/
def phase : Fault → Phase
  | illegalCharacter .. | unterminatedComment .. | unterminatedChar .. => .lexical
  | unexpectedToken .. | invalidLiteral .. | constNotLiteral .. | missingTypeOrValue .. =>
    .syntactic
  | binaryMismatch .. | unaryMismatch .. | undefinedName .. | assignToConst .. | typeMismatch ..
  | conditionNotBool .. | duplicateDefinition .. | unknownType .. | loopControlOutsideLoop ..
  | blockWithoutValue .. | typeErrors .. => .typing
  | undefinedVariable .. | divisionByZero .. | integerOverflow .. | operandMismatch ..
  | noValue .. => .runtime
  | outputFailed .. => .output

/-- Every fault but a collection and a failing output device names its line. -/
theorem line?_isSome {fault : Fault} (collection : ∀ faults, fault ≠ typeErrors faults)
    (output : ∀ reason, fault ≠ outputFailed reason) : fault.line?.isSome = true := by
  cases fault <;> simp_all [line?]

end Fault

end BlockLang
