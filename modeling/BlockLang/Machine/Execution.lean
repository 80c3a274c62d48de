import BlockLang.Attempt
import BlockLang.Machine.Environment
import BlockLang.Machine.Sink
import BlockLang.Program.Basic

/-!
# Running programs

A `Machine` is the state of a running program: its environment and the sink that takes its output.
`Machine.run` carries a program out.  All recursion follows the tree of the program, except that a
loop is repeated; `bound` limits the repetitions of each loop, and a run that would exceed it is
stopped, which is neither success nor fault.  A program without loops therefore always comes to an
end.

Evaluation goes from left to right, and both operands of every operator are evaluated.
-/

namespace BlockLang

/-- The state of a running program. -/
structure Machine (σ : Type) where
  env : Environment
  out : σ
  deriving Inhabited

/-- An activity of a running program. -/
abbrev Running (σ : Type) := Attempt (Machine σ) Fault

/-- How a statement ended. -/
inductive Flow
  /-- The next statement follows. -/
  | normal
  /-- The nearest loop is left. -/
  | broken
  /-- The nearest loop goes on with its next repetition. -/
  | continued
  deriving DecidableEq, Repr, Inhabited

namespace Machine

variable {σ : Type}

/-! ## Single steps -/

/-- The value of a name. -/
def lookup (ident : Ident) : Running σ Value := fun m =>
  match Environment.lookup m.env ident.name with
  | some binding => (.done binding.value, m)
  | none => (.failed (.undefinedVariable ident.name ident.line), m)

/-- Bind a name in the innermost frame. -/
def define (name : Ident) (kind : BindingKind) (value : Value) : Running σ Unit :=
  Attempt.modify fun m => ⟨Environment.define m.env name.name kind value, m.out⟩

/-- Assign to a name. -/
def assign (target : Ident) (value : Value) (line : Nat) : Running σ Unit := fun m =>
  match Environment.assign m.env target.name value line with
  | .ok env => (.done (), ⟨env, m.out⟩)
  | .error fault => (.failed fault, m)

/-- The result of an operation on the sink. -/
def output (operation : σ → Option String × σ) : Running σ Unit := fun m =>
  match operation m.out with
  | (none, out) => (.done (), ⟨m.env, out⟩)
  | (some reason, out) => (.failed (.outputFailed reason), ⟨m.env, out⟩)

/-- Print a value. -/
def print [Sink σ] (value : Value) : Running σ Unit :=
  output (Sink.write value.printed)

/-- The truth value that decides a choice or a loop. -/
def truth (construct : String) (line : Nat) : Value → Running σ Bool
  | .bool value => pure value
  | other => Attempt.fail (.operandMismatch construct other.ty.name line)

/-- The value of a variable that is declared without one. -/
def initial (name : Ident) : Option Ident → Except Fault Value
  | none => .error (.missingTypeOrValue name.name name.line)
  | some declared =>
    match Ty.ofName? declared.name with
    | some ty => .ok (.zero ty)
    | none => .error (.unknownType declared.name declared.line)

/-- Carry out an activity in a new frame, which is destroyed when the activity is done or has
failed. -/
def inFrame {α : Type} (activity : Running σ α) : Running σ α := do
  Attempt.modify fun m => ⟨m.env.enter, m.out⟩
  activity.thenAlways fun m => ⟨Environment.exit m.env, m.out⟩

/-! ## Expressions and statements -/

variable [Sink σ]

mutual

/-- The value of an expression. -/
def eval (bound : Nat) : Expr → Running σ Value
  | .literal value => pure (.ofLiteral value)
  | .name ident => lookup ident
  | .unary op operand line => do
    let value ← eval bound operand
    Attempt.ofExcept (value.applyUnary op line)
  | .binary op left right line => do
    let leftValue ← eval bound left
    let rightValue ← eval bound right
    Attempt.ofExcept (leftValue.applyBinary op rightValue line)
  | .block body line => inFrame (evalBody bound line body)

/-- The value of the last statement of a block expression, behind the others.  A block has no value
if another statement is the last one or if a `break` or a `continue` leaves it. -/
def evalBody (bound : Nat) (line : Nat) : List Stmt → Running σ Value
  | [] => Attempt.fail (.noValue "block" line)
  | [last] =>
    match last with
    | .expr value => eval bound value
    | _ => Attempt.fail (.noValue "block" line)
  | first :: rest => do
    let flow ← exec bound first
    if flow = .normal then evalBody bound line rest
    else Attempt.fail (.noValue "block" line)

/-- Carry out a statement. -/
def exec (bound : Nat) : Stmt → Running σ Flow
  | .constDef name _ value _ => do
    let value ← eval bound value
    define name .const value
    return .normal
  | .varDef name _ value _ => do
    let value ← eval bound value
    define name .var value
    return .normal
  | .varDecl name ty _ => do
    let value ← Attempt.ofExcept (initial name ty)
    define name .var value
    return .normal
  | .assign target value line => do
    let value ← eval bound value
    assign target value line
    return .normal
  | .print value _ => do
    let value ← eval bound value
    print value
    return .normal
  | .ifElse test thenBlock elseBlock line => do
    let value ← eval bound test
    let holds ← truth "if" line value
    if holds then inFrame (execAll bound thenBlock) else inFrame (execAll bound elseBlock)
  | .whileLoop test body line => do
    Attempt.iterate
      (do
        let value ← eval bound test
        truth "while" line value)
      (do
        let flow ← inFrame (execAll bound body)
        return flow ≠ .broken)
      bound
    return .normal
  | .breakLoop _ => return .broken
  | .continueLoop _ => return .continued
  | .expr value => do
    let _ ← eval bound value
    return .normal

/-- Carry out statements up to the first one that does not end normally. -/
def execAll (bound : Nat) : List Stmt → Running σ Flow
  | [] => return .normal
  | first :: rest => do
    let flow ← exec bound first
    if flow = .normal then execAll bound rest else return flow

end

/-- Carry out a program in a new root frame and flush its output. -/
def run (bound : Nat) (program : Program) : Running σ Unit := do
  Attempt.modify fun m => ⟨.root, m.out⟩
  let _ ← execAll bound program.body
  output Sink.flush

end Machine

namespace Program

variable {σ : Type} [Sink σ]

/-- Run a program on a sink.  `bound` limits the repetitions of each loop. -/
def run (bound : Nat) (program : Program) (out : σ) : Outcome Fault Unit × σ :=
  let (outcome, m) := (Machine.run bound program).run ⟨.root, out⟩
  (outcome, m.out)

end Program

end BlockLang
