import BlockLang.Fault.Basic
import BlockLang.Proofs.Program.Everywhere

/-!
# The lines and the names of a program

`NodeCondition.onLines` asks that a node and the names that it uses stand on some lines, and
`Fault.PointsTo` that a fault points at one of them.  `NodeCondition.named` asks something of the
names that a node uses.
-/

namespace BlockLang

/-- The fault points at one of the lines. -/
def Fault.PointsTo (lines : List Nat) (fault : Fault) : Prop :=
  ∃ line ∈ lines, fault.line? = some line

/-- The names that a statement itself uses, that of a declared type included. -/
def Stmt.idents : Stmt → List Ident
  | .constDef name ty _ _ | .varDef name ty _ _ | .varDecl name ty _ => name :: ty.toList
  | .assign target _ _ => [target]
  | _ => []

/-- A node stands on one of the lines, and so does each name that it uses. -/
def NodeCondition.onLines (lines : List Nat) : NodeCondition where
  onStmt s := s.line ∈ lines ∧ ∀ ident ∈ s.idents, ident.line ∈ lines
  onExpr e := e.line ∈ lines

/-- The name that an expression itself uses. -/
def Expr.idents : Expr → List Ident
  | .name ident => [ident]
  | _ => []

/-- The names that a node uses have a property. -/
def NodeCondition.named (P : String → Prop) : NodeCondition where
  onStmt s := ∀ ident ∈ s.idents, P ident.name
  onExpr e := ∀ ident ∈ e.idents, P ident.name

/-- A node stands on one of the lines, and so do the names that it uses, which have a property. -/
def NodeCondition.mentions (lines : List Nat) (P : String → Prop) : NodeCondition :=
  (onLines lines).and (named P)

lemma Expr.Everywhere.line_mem {lines : List Nat} {e : Expr} (h : e.Everywhere (.onLines lines)) :
    e.line ∈ lines := by
  cases e with
  | literal _ | name _ => exact h
  | unary _ _ _ | binary _ _ _ _ | block _ _ => exact h.1

end BlockLang
