import BlockLang.Token.Basic

/-!
# Programs

The tree of a program: a list of statements over expressions, each node with the line it comes
from.  The trees are plain data; which of them are programs that can be written is decided by
`BlockLang.Parser`, and which of them make sense by `BlockLang.TypeChecker`.

Operators are listed with their spelling, and binary operators with their precedence: higher
binds tighter, and operators of one precedence associate to the left.
-/

namespace BlockLang

/-- A name with the line on which it is used. -/
structure Ident where
  name : String
  line : Nat
  deriving DecidableEq, Repr, Inhabited

/-- A value written in the program. -/
inductive Literal
  | int (value : Int64) (line : Nat)
  | float (value : Float) (line : Nat)
  | bool (value : Bool) (line : Nat)
  | char (value : Char) (line : Nat)
  deriving DecidableEq, Repr, Inhabited

/-- The line of a literal. -/
def Literal.line : Literal → Nat
  | int _ line | float _ line | bool _ line | char _ line => line

/-! ## Operators -/

/-- The operators between two operands. -/
inductive BinOp
  | add | sub | mul | div
  | lt | le | gt | ge | eq | ne
  | and | or
  deriving DecidableEq, Repr, Inhabited

namespace BinOp

/-- All operators, in the order in which the language lists them. -/
def all : List BinOp :=
  [add, sub, mul, div, lt, le, gt, ge, eq, ne, and, or]

/-- The token that stands for an operator. -/
def token : BinOp → TokenKind
  | add => .plus
  | sub => .minus
  | mul => .times
  | div => .divide
  | lt => .lt
  | le => .le
  | gt => .gt
  | ge => .ge
  | eq => .eq
  | ne => .ne
  | and => .andAnd
  | or => .orOr

/-- The operator that a token stands for between two operands. -/
def ofToken? : TokenKind → Option BinOp
  | .plus => some add
  | .minus => some sub
  | .times => some mul
  | .divide => some div
  | .lt => some lt
  | .le => some le
  | .gt => some gt
  | .ge => some ge
  | .eq => some eq
  | .ne => some ne
  | .andAnd => some and
  | .orOr => some or
  | _ => none

/-- How an operator is written. -/
def symbol (op : BinOp) : String :=
  op.token.spelling?.getD ""

/-- How tightly an operator binds, from `or` to the products. -/
def precedence : BinOp → Nat
  | or => 1
  | and => 2
  | lt | le | gt | ge | eq | ne => 3
  | add | sub => 4
  | mul | div => 5

@[simp] theorem ofToken?_token (op : BinOp) : ofToken? op.token = some op := by
  cases op <;> rfl

theorem token_of_ofToken? {kind : TokenKind} {op : BinOp} (h : ofToken? kind = some op) :
    op.token = kind := by
  cases kind <;> cases h <;> rfl

end BinOp

/-- The operators in front of one operand. -/
inductive UnaryOp
  | pos | neg | not
  deriving DecidableEq, Repr, Inhabited

namespace UnaryOp

/-- All operators, in the order in which the language lists them. -/
def all : List UnaryOp :=
  [pos, neg, not]

/-- The token that stands for an operator. -/
def token : UnaryOp → TokenKind
  | pos => .plus
  | neg => .minus
  | not => .bang

/-- The operator that a token stands for in front of an operand. -/
def ofToken? : TokenKind → Option UnaryOp
  | .plus => some pos
  | .minus => some neg
  | .bang => some not
  | _ => none

/-- How an operator is written. -/
def symbol (op : UnaryOp) : String :=
  op.token.spelling?.getD ""

@[simp] theorem ofToken?_token (op : UnaryOp) : ofToken? op.token = some op := by
  cases op <;> rfl

theorem token_of_ofToken? {kind : TokenKind} {op : UnaryOp} (h : ofToken? kind = some op) :
    op.token = kind := by
  cases kind <;> cases h <;> rfl

end UnaryOp

/-! ## Expressions and statements -/

mutual

/-- What has a value. -/
inductive Expr
  | literal (value : Literal)
  | name (ident : Ident)
  | unary (op : UnaryOp) (operand : Expr) (line : Nat)
  | binary (op : BinOp) (left right : Expr) (line : Nat)
  /-- Statements in braces, of which the last one gives the value. -/
  | block (body : List Stmt) (line : Nat)

/-- What is carried out. -/
inductive Stmt
  /-- A constant with its value, and its type if that is declared. -/
  | constDef (name : Ident) (ty : Option Ident) (value : Expr) (line : Nat)
  /-- A variable with an initial value, and its type if that is declared. -/
  | varDef (name : Ident) (ty : Option Ident) (value : Expr) (line : Nat)
  /-- A variable without an initial value, which then has a declared type. -/
  | varDecl (name : Ident) (ty : Option Ident) (line : Nat)
  | assign (target : Ident) (value : Expr) (line : Nat)
  | print (expr : Expr) (line : Nat)
  /-- A choice; without an alternative `elseBlock` is empty. -/
  | ifElse (test : Expr) (thenBlock elseBlock : List Stmt) (line : Nat)
  | whileLoop (test : Expr) (body : List Stmt) (line : Nat)
  | breakLoop (line : Nat)
  | continueLoop (line : Nat)
  | expr (value : Expr)

end

deriving instance Repr for Expr, Stmt

instance : Inhabited Expr := ⟨.literal default⟩
instance : Inhabited Stmt := ⟨.expr default⟩

/-- The line of an expression: that of its operator, its opening brace or its only token. -/
def Expr.line : Expr → Nat
  | literal value => value.line
  | name ident => ident.line
  | unary _ _ line | binary _ _ _ line | block _ line => line

/-- Whether an expression is a value written in the program. -/
def Expr.isLiteral : Expr → Bool
  | literal _ => true
  | _ => false

/-- The line of a statement: that of its keyword, of its `=`, or of its expression. -/
def Stmt.line : Stmt → Nat
  | constDef _ _ _ line | varDef _ _ _ line | varDecl _ _ line | assign _ _ line | print _ line
  | ifElse _ _ _ line | whileLoop _ _ line | breakLoop line | continueLoop line => line
  | expr value => value.line

/-- A list of statements that is run from the beginning to the end. -/
structure Program where
  body : List Stmt
  deriving Repr, Inhabited

end BlockLang
