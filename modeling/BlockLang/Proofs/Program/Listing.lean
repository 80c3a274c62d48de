import BlockLang.Proofs.Program.Counting

/-!
# The statements of a program in order

`Program.statements` lists all statements of a program as they are written: each one in front of
what is inside of it, be it in an expression, in a branch or in the body of a loop.  A statement
stands in the list as often as in the program, so that to count in the list is to count in the tree
(`Program.countP_statements`).
-/

namespace BlockLang

mutual

/-- The statements in an expression. -/
def Expr.statements : Expr → List Stmt
  | .literal _ | .name _ => []
  | .unary _ operand _ => operand.statements
  | .binary _ left right _ => left.statements ++ right.statements
  | .block body _ => Stmt.listed body

/-- The statements inside of a statement. -/
def Stmt.inner : Stmt → List Stmt
  | .constDef _ _ value _ | .varDef _ _ value _ | .assign _ value _ | .print value _
  | .expr value => value.statements
  | .varDecl _ _ _ | .breakLoop _ | .continueLoop _ => []
  | .ifElse test thenBlock elseBlock _ =>
    test.statements ++ (Stmt.listed thenBlock ++ Stmt.listed elseBlock)
  | .whileLoop test body _ => test.statements ++ Stmt.listed body

/-- Some statements, each with those inside of it. -/
def Stmt.listed : List Stmt → List Stmt
  | [] => []
  | first :: rest => first :: (first.inner ++ Stmt.listed rest)

end

/-- All statements of a program. -/
def Program.statements (program : Program) : List Stmt :=
  Stmt.listed program.body

/-! ## Counting in the list -/

namespace NodeWeight

/-- Each statement of a kind counts one. -/
def counting (kind : Stmt → Bool) : NodeWeight where
  onStmt s := if kind s then 1 else 0
  onExpr _ := 0

end NodeWeight

variable (kind : Stmt → Bool)

mutual

lemma Expr.countP_statements : ∀ e : Expr,
    e.statements.countP kind = e.total (.counting kind)
  | .literal _ | .name _ => rfl
  | .unary op operand line => by
    rw [Expr.statements, operand.countP_statements, Expr.total, NodeWeight.counting, Nat.zero_add]
  | .binary op left right line => by
    rw [Expr.statements, List.countP_append, left.countP_statements, right.countP_statements,
      Expr.total, NodeWeight.counting, Nat.zero_add]
  | .block body line => by
    rw [Expr.statements, Stmt.countP_listed body, Expr.total, NodeWeight.counting, Nat.zero_add]

/-- What is inside of a statement, and the statement itself. -/
lemma Stmt.countP_inner : ∀ s : Stmt,
    (if kind s then 1 else 0) + s.inner.countP kind = s.total (.counting kind)
  | .constDef _ _ value _ | .varDef _ _ value _ | .assign _ value _ | .print value _
  | .expr value => by
    rw [Stmt.inner, value.countP_statements, Stmt.total, NodeWeight.counting]
  | .varDecl _ _ _ | .breakLoop _ | .continueLoop _ => rfl
  | .ifElse test thenBlock elseBlock line => by
    rw [Stmt.inner, List.countP_append, List.countP_append, test.countP_statements,
      Stmt.countP_listed thenBlock, Stmt.countP_listed elseBlock, Stmt.total, NodeWeight.counting]
  | .whileLoop test body line => by
    rw [Stmt.inner, List.countP_append, test.countP_statements, Stmt.countP_listed body, Stmt.total,
      NodeWeight.counting]

lemma Stmt.countP_listed : ∀ body : List Stmt,
    (Stmt.listed body).countP kind = Stmt.sum (.counting kind) body
  | [] => rfl
  | first :: rest => by
    rw [Stmt.listed, List.countP_cons, List.countP_append, Stmt.countP_listed rest, Stmt.sum,
      ← first.countP_inner]
    omega

end

/-- A kind of statements is as frequent in the list as in the tree. -/
theorem Program.countP_statements (program : Program) :
    program.statements.countP kind = program.total (.counting kind) :=
  Stmt.countP_listed kind program.body

end BlockLang
