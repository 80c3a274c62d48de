import BlockLang.Typing.SymbolTable

/-!
# Checking types

`TypeChecker.check` visits a whole program and collects every fault of typing, instead of stopping
at the first one.  An expression whose type could not be found has no type; the fault has been
reported where it arose, and whatever surrounds the expression stays quiet about it.

A checker can be used for several programs in turn: what one of them defines in the outermost
scope is known to the next.
-/

namespace BlockLang

/-- The state of checking. -/
structure TypeChecker where
  symbols : SymbolTable
  /-- The faults found so far, in the order in which they were found. -/
  errors : List Fault
  /-- The number of loops around the current statement, up to the nearest block expression. -/
  loopDepth : Nat
  deriving Inhabited

/-- An activity of a checker. -/
abbrev Checking := StateM TypeChecker

namespace TypeChecker

/-- A checker that knows no names. -/
def new : TypeChecker :=
  ⟨.root, [], 0⟩

/-- Add a fault to those found so far. -/
def report (fault : Fault) : Checking Unit :=
  modify fun c => { c with errors := c.errors ++ [fault] }

/-- What is known about a name. -/
def lookup (name : String) : Checking (Option Symbol) := do
  let c ← get
  return c.symbols.get? name

/-- Enter a scope. -/
def enterScope : Checking Unit :=
  modify fun c => { c with symbols := c.symbols.enter }

/-- Leave a scope. -/
def leaveScope : Checking Unit :=
  modify fun c => { c with symbols := c.symbols.leave }

/-- Set the number of surrounding loops. -/
def setLoopDepth (depth : Nat) : Checking Unit :=
  modify fun c => { c with loopDepth := depth }

/-- Enter the body of a loop. -/
def enterLoop : Checking Unit :=
  modify fun c => { c with loopDepth := c.loopDepth + 1 }

/-- Leave the body of a loop. -/
def leaveLoop : Checking Unit :=
  modify fun c => { c with loopDepth := c.loopDepth - 1 }

/-! ## Rules for single nodes -/

/-- Define a name in the current scope, where it must be new. -/
def define (symbol : Symbol) : Checking Unit := do
  let c ← get
  match c.symbols.define symbol with
  | .ok symbols => set { c with symbols }
  | .error fault => report fault

/-- The type of a name. -/
def nameType (ident : Ident) : Checking (Option Ty) := do
  match ← lookup ident.name with
  | some symbol => return symbol.ty
  | none =>
    report (.undefinedName ident.name ident.line)
    return none

/-- The type of a unary operation, if its operand has one. -/
def unaryType (op : UnaryOp) (operand : Option Ty) (line : Nat) : Checking (Option Ty) := do
  match operand with
  | none => return none
  | some ty =>
    match Ty.ofUnary? op ty with
    | some result => return some result
    | none =>
      report (.unaryMismatch op.symbol ty.name line)
      return none

/-- The type of a binary operation, if both its operands have one. -/
def binaryType (op : BinOp) (left right : Option Ty) (line : Nat) : Checking (Option Ty) := do
  match left, right with
  | some left, some right =>
    match Ty.ofBinary? op left right with
    | some result => return some result
    | none =>
      report (.binaryMismatch op.symbol left.name right.name line)
      return none
  | _, _ => return none

/-- The type that a definition declares, if it names one of the types. -/
def declaredType (declared : Option Ident) : Checking (Option Ty) := do
  match declared with
  | none => return none
  | some ident =>
    match Ty.ofName? ident.name with
    | some ty => return some ty
    | none =>
      report (.unknownType ident.name ident.line)
      return none

/-- The type of the name that a definition makes.  A declared type wins over that of the value,
and an unknown declared type leaves the name without one. -/
def definitionType (name : Ident) (declared : Option Ident) (value : Option Ty) (line : Nat) :
    Checking (Option Ty) := do
  match declared, ← declaredType declared with
  | none, _ => return value
  | some _, none => return none
  | some _, some expected =>
    match value with
    | some got =>
      if expected ≠ got then
        report (.typeMismatch name.name expected.name got.name line)
      return some expected
    | none => return some expected

/-- A definition, behind its value. -/
def definition (kind : BindingKind) (name : Ident) (declared : Option Ident) (value : Option Ty)
    (line : Nat) : Checking Unit := do
  let ty ← definitionType name declared value line
  define ⟨name.name, kind, ty, line⟩

/-- An assignment, behind its value.  The target must be a variable of the type of the value. -/
def assignment (target : Ident) (value : Option Ty) (line : Nat) : Checking Unit := do
  match ← lookup target.name with
  | none => report (.undefinedName target.name line)
  | some symbol =>
    match symbol.kind with
    | .const => report (.assignToConst target.name line)
    | .var =>
      match symbol.ty, value with
      | some expected, some got =>
        if expected ≠ got then
          report (.typeMismatch target.name expected.name got.name line)
      | _, _ => return ()

/-- A condition, behind its test: a test that has a type must be a truth value. -/
def condition (construct : String) (test : Option Ty) (line : Nat) : Checking Unit := do
  match test with
  | none | some .bool => return ()
  | some other => report (.conditionNotBool construct other.name line)

/-- A `break` or a `continue`, which a loop must surround. -/
def loopControl (keyword : String) (line : Nat) : Checking Unit := do
  let c ← get
  if c.loopDepth = 0 then
    report (.loopControlOutsideLoop keyword line)

/-- Whether statements end with an expression, which then is their value. -/
def endsWithExpr : List Stmt → Bool
  | [] => false
  | [.expr _] => true
  | _ :: rest => endsWithExpr rest

/-! ## Expressions and statements -/

mutual

/-- The type of an expression. -/
def checkExpr : Expr → Checking (Option Ty)
  | .literal value => return some (Ty.ofLiteral value)
  | .name ident => nameType ident
  | .unary op operand line => do
    let ty ← checkExpr operand
    unaryType op ty line
  | .binary op left right line => do
    let leftTy ← checkExpr left
    let rightTy ← checkExpr right
    binaryType op leftTy rightTy line
  | .block body line => do
    let c ← get
    setLoopDepth 0
    enterScope
    let ty ← checkStmts body
    leaveScope
    setLoopDepth c.loopDepth
    if endsWithExpr body then
      return ty
    else
      report (.blockWithoutValue line)
      return none

/-- The type of a statement that is an expression; other statements have none. -/
def checkStmt : Stmt → Checking (Option Ty)
  | .constDef name ty value line => do
    let valueTy ← checkExpr value
    definition .const name ty valueTy line
    return none
  | .varDef name ty value line => do
    let valueTy ← checkExpr value
    definition .var name ty valueTy line
    return none
  | .varDecl name ty line => do
    definition .var name ty none line
    return none
  | .assign target value line => do
    let valueTy ← checkExpr value
    assignment target valueTy line
    return none
  | .print value _ => do
    let _ ← checkExpr value
    return none
  | .ifElse test thenBlock elseBlock line => do
    let testTy ← checkExpr test
    condition "if" testTy line
    enterScope
    let _ ← checkStmts thenBlock
    leaveScope
    enterScope
    let _ ← checkStmts elseBlock
    leaveScope
    return none
  | .whileLoop test body line => do
    let testTy ← checkExpr test
    condition "while" testTy line
    enterLoop
    enterScope
    let _ ← checkStmts body
    leaveScope
    leaveLoop
    return none
  | .breakLoop line => do
    loopControl "break" line
    return none
  | .continueLoop line => do
    loopControl "continue" line
    return none
  | .expr value => checkExpr value

/-- The type of the last statement, if that is an expression. -/
def checkStmts : List Stmt → Checking (Option Ty)
  | [] => return none
  | [last] => checkStmt last
  | first :: rest => do
    let _ ← checkStmt first
    checkStmts rest

end

/-- Check a program.  The faults found are handed over together, and none of them is kept. -/
def check (program : Program) (checker : TypeChecker) : Except Fault Unit × TypeChecker :=
  let (_, checked) := (checkStmts program.body).run checker
  (if checked.errors.isEmpty then .ok () else .error (.typeErrors checked.errors),
    { checked with errors := [] })

end TypeChecker

namespace Program

/-- Check a program on its own. -/
def check (program : Program) : Except Fault Unit :=
  (TypeChecker.new.check program).1

end Program

end BlockLang
