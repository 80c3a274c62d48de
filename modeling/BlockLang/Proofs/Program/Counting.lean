import BlockLang.Program.Basic
import Mathlib.Tactic.Common

/-!
# Counting the nodes of a program

A `NodeWeight` says how much single statements and single expressions count.  `Program.total` adds
up what all nodes of a program count, at any depth: inside of branches, bodies of loops and block
expressions.  Totals are linear in the weight (`Program.total_add`).
-/

namespace BlockLang

/-- How much each statement and each expression counts. -/
structure NodeWeight where
  onStmt : Stmt → Nat
  onExpr : Expr → Nat

mutual

/-- What an expression and everything in it count. -/
def Expr.total (w : NodeWeight) : Expr → Nat
  | .literal value => w.onExpr (.literal value)
  | .name ident => w.onExpr (.name ident)
  | .unary op operand line => w.onExpr (.unary op operand line) + operand.total w
  | .binary op left right line =>
    w.onExpr (.binary op left right line) + (left.total w + right.total w)
  | .block body line => w.onExpr (.block body line) + Stmt.sum w body

/-- What a statement and everything in it count. -/
def Stmt.total (w : NodeWeight) : Stmt → Nat
  | .constDef name ty value line => w.onStmt (.constDef name ty value line) + value.total w
  | .varDef name ty value line => w.onStmt (.varDef name ty value line) + value.total w
  | .varDecl name ty line => w.onStmt (.varDecl name ty line)
  | .assign target value line => w.onStmt (.assign target value line) + value.total w
  | .print value line => w.onStmt (.print value line) + value.total w
  | .ifElse test thenBlock elseBlock line =>
    w.onStmt (.ifElse test thenBlock elseBlock line) +
      (test.total w + (Stmt.sum w thenBlock + Stmt.sum w elseBlock))
  | .whileLoop test body line =>
    w.onStmt (.whileLoop test body line) + (test.total w + Stmt.sum w body)
  | .breakLoop line => w.onStmt (.breakLoop line)
  | .continueLoop line => w.onStmt (.continueLoop line)
  | .expr value => w.onStmt (.expr value) + value.total w

/-- What some statements and everything in them count. -/
def Stmt.sum (w : NodeWeight) : List Stmt → Nat
  | [] => 0
  | first :: rest => first.total w + Stmt.sum w rest

end

/-- What all nodes of a program count. -/
def Program.total (w : NodeWeight) (program : Program) : Nat :=
  Stmt.sum w program.body

/-! ## Weights -/

namespace NodeWeight

/-- Each `if` counts one. -/
def ifs : NodeWeight where
  onStmt
    | .ifElse _ _ _ _ => 1
    | _ => 0
  onExpr _ := 0

/-- Each `while` counts one. -/
def whiles : NodeWeight where
  onStmt
    | .whileLoop _ _ _ => 1
    | _ => 0
  onExpr _ := 0

/-- Each block that stands for a value counts one. -/
def blocks : NodeWeight where
  onStmt _ := 0
  onExpr
    | .block _ _ => 1
    | _ => 0

/-- What both weights count together. -/
instance : Add NodeWeight :=
  ⟨fun w w' => ⟨fun s => w.onStmt s + w'.onStmt s, fun e => w.onExpr e + w'.onExpr e⟩⟩

lemma onStmt_add (w w' : NodeWeight) (s : Stmt) :
    (w + w').onStmt s = w.onStmt s + w'.onStmt s :=
  rfl

lemma onExpr_add (w w' : NodeWeight) (e : Expr) :
    (w + w').onExpr e = w.onExpr e + w'.onExpr e :=
  rfl

end NodeWeight

/-! ## Linearity -/

variable (w w' : NodeWeight)

mutual

lemma Expr.total_add : ∀ e : Expr, e.total (w + w') = e.total w + e.total w'
  | .literal _ | .name _ => rfl
  | .unary op operand line => by
    simp only [Expr.total, operand.total_add, NodeWeight.onExpr_add]
    omega
  | .binary op left right line => by
    simp only [Expr.total, left.total_add, right.total_add, NodeWeight.onExpr_add]
    omega
  | .block body line => by
    simp only [Expr.total, Stmt.sum_add body, NodeWeight.onExpr_add]
    omega

lemma Stmt.total_add : ∀ s : Stmt, s.total (w + w') = s.total w + s.total w'
  | .constDef _ _ value _ | .varDef _ _ value _ | .assign _ value _ | .print value _
  | .expr value => by
    simp only [Stmt.total, value.total_add, NodeWeight.onStmt_add]
    omega
  | .varDecl _ _ _ | .breakLoop _ | .continueLoop _ => rfl
  | .ifElse test thenBlock elseBlock line => by
    simp only [Stmt.total, test.total_add, Stmt.sum_add thenBlock, Stmt.sum_add elseBlock,
      NodeWeight.onStmt_add]
    omega
  | .whileLoop test body line => by
    simp only [Stmt.total, test.total_add, Stmt.sum_add body, NodeWeight.onStmt_add]
    omega

lemma Stmt.sum_add : ∀ body : List Stmt,
    Stmt.sum (w + w') body = Stmt.sum w body + Stmt.sum w' body
  | [] => rfl
  | first :: rest => by
    rw [Stmt.sum, first.total_add, Stmt.sum_add rest, Stmt.sum, Stmt.sum]
    omega

end

theorem Program.total_add (program : Program) :
    program.total (w + w') = program.total w + program.total w' :=
  Stmt.sum_add w w' program.body

end BlockLang
