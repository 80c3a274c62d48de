import BlockLang.Program.Basic
import Mathlib.Tactic.Common

/-!
# Conditions on every node of a program

A `NodeCondition` asks something of single statements and of single expressions.
`Program.Everywhere` asks it of every node of a program, at any depth: inside of branches, bodies
of loops and block expressions.

Trees can be built that no text stands for.  `Program.Declared` is the condition on which the
typing rules depend: every variable has a type or an initial value.
-/

namespace BlockLang

/-- What is asked of each statement and of each expression. -/
structure NodeCondition where
  onStmt : Stmt → Prop
  onExpr : Expr → Prop

mutual

/-- The condition holds of an expression and of everything in it. -/
def Expr.Everywhere (P : NodeCondition) : Expr → Prop
  | .literal value => P.onExpr (.literal value)
  | .name ident => P.onExpr (.name ident)
  | .unary op operand line => P.onExpr (.unary op operand line) ∧ operand.Everywhere P
  | .binary op left right line =>
    P.onExpr (.binary op left right line) ∧ left.Everywhere P ∧ right.Everywhere P
  | .block body line => P.onExpr (.block body line) ∧ Stmt.AllEverywhere P body

/-- The condition holds of a statement and of everything in it. -/
def Stmt.Everywhere (P : NodeCondition) : Stmt → Prop
  | .constDef name ty value line =>
    P.onStmt (.constDef name ty value line) ∧ value.Everywhere P
  | .varDef name ty value line => P.onStmt (.varDef name ty value line) ∧ value.Everywhere P
  | .varDecl name ty line => P.onStmt (.varDecl name ty line)
  | .assign target value line => P.onStmt (.assign target value line) ∧ value.Everywhere P
  | .print value line => P.onStmt (.print value line) ∧ value.Everywhere P
  | .ifElse test thenBlock elseBlock line =>
    P.onStmt (.ifElse test thenBlock elseBlock line) ∧ test.Everywhere P ∧
      Stmt.AllEverywhere P thenBlock ∧ Stmt.AllEverywhere P elseBlock
  | .whileLoop test body line =>
    P.onStmt (.whileLoop test body line) ∧ test.Everywhere P ∧ Stmt.AllEverywhere P body
  | .breakLoop line => P.onStmt (.breakLoop line)
  | .continueLoop line => P.onStmt (.continueLoop line)
  | .expr value => P.onStmt (.expr value) ∧ value.Everywhere P

/-- The condition holds of each of some statements and of everything in them. -/
def Stmt.AllEverywhere (P : NodeCondition) : List Stmt → Prop
  | [] => True
  | first :: rest => first.Everywhere P ∧ Stmt.AllEverywhere P rest

end

/-- The condition holds of every node of a program. -/
def Program.Everywhere (P : NodeCondition) (program : Program) : Prop :=
  Stmt.AllEverywhere P program.body

/-- A condition implies another one if it does so for each node. -/
structure NodeCondition.Implies (P Q : NodeCondition) : Prop where
  onStmt : ∀ s, P.onStmt s → Q.onStmt s
  onExpr : ∀ e, P.onExpr e → Q.onExpr e

mutual

lemma Expr.Everywhere.mono {P Q : NodeCondition} (hPQ : P.Implies Q) :
    ∀ {e : Expr}, e.Everywhere P → e.Everywhere Q
  | .literal _, h | .name _, h => hPQ.onExpr _ h
  | .unary _ _ _, h => ⟨hPQ.onExpr _ h.1, h.2.mono hPQ⟩
  | .binary _ _ _ _, h => ⟨hPQ.onExpr _ h.1, h.2.1.mono hPQ, h.2.2.mono hPQ⟩
  | .block _ _, h => ⟨hPQ.onExpr _ h.1, Stmt.AllEverywhere.mono hPQ h.2⟩

lemma Stmt.Everywhere.mono {P Q : NodeCondition} (hPQ : P.Implies Q) :
    ∀ {s : Stmt}, s.Everywhere P → s.Everywhere Q
  | .constDef _ _ _ _, h | .varDef _ _ _ _, h | .assign _ _ _, h | .print _ _, h | .expr _, h =>
    ⟨hPQ.onStmt _ h.1, h.2.mono hPQ⟩
  | .varDecl _ _ _, h | .breakLoop _, h | .continueLoop _, h => hPQ.onStmt _ h
  | .ifElse _ _ _ _, h =>
    ⟨hPQ.onStmt _ h.1, h.2.1.mono hPQ, Stmt.AllEverywhere.mono hPQ h.2.2.1,
      Stmt.AllEverywhere.mono hPQ h.2.2.2⟩
  | .whileLoop _ _ _, h =>
    ⟨hPQ.onStmt _ h.1, h.2.1.mono hPQ, Stmt.AllEverywhere.mono hPQ h.2.2⟩

lemma Stmt.AllEverywhere.mono {P Q : NodeCondition} (hPQ : P.Implies Q) :
    ∀ {body : List Stmt}, Stmt.AllEverywhere P body → Stmt.AllEverywhere Q body
  | [], _ => trivial
  | _ :: _, h => ⟨h.1.mono hPQ, Stmt.AllEverywhere.mono hPQ h.2⟩

end

lemma Stmt.allEverywhere_append {P : NodeCondition} {body later : List Stmt} :
    Stmt.AllEverywhere P (body ++ later) ↔
      Stmt.AllEverywhere P body ∧ Stmt.AllEverywhere P later := by
  induction body with
  | nil => exact iff_and_self.mpr fun _ => trivial
  | cons first rest ih => exact (and_congr Iff.rfl ih).trans and_assoc.symm

/-- Both conditions. -/
def NodeCondition.and (P Q : NodeCondition) : NodeCondition where
  onStmt s := P.onStmt s ∧ Q.onStmt s
  onExpr e := P.onExpr e ∧ Q.onExpr e

mutual

lemma Expr.Everywhere.and {P Q : NodeCondition} : ∀ {e : Expr}, e.Everywhere P →
    e.Everywhere Q → e.Everywhere (P.and Q)
  | .literal _, h, h' | .name _, h, h' => ⟨h, h'⟩
  | .unary _ _ _, h, h' => ⟨⟨h.1, h'.1⟩, h.2.and h'.2⟩
  | .binary _ _ _ _, h, h' => ⟨⟨h.1, h'.1⟩, h.2.1.and h'.2.1, h.2.2.and h'.2.2⟩
  | .block _ _, h, h' => ⟨⟨h.1, h'.1⟩, Stmt.AllEverywhere.and h.2 h'.2⟩

lemma Stmt.Everywhere.and {P Q : NodeCondition} : ∀ {s : Stmt}, s.Everywhere P →
    s.Everywhere Q → s.Everywhere (P.and Q)
  | .constDef _ _ _ _, h, h' | .varDef _ _ _ _, h, h' | .assign _ _ _, h, h' | .print _ _, h, h'
  | .expr _, h, h' => ⟨⟨h.1, h'.1⟩, h.2.and h'.2⟩
  | .varDecl _ _ _, h, h' | .breakLoop _, h, h' | .continueLoop _, h, h' => ⟨h, h'⟩
  | .ifElse _ _ _ _, h, h' =>
    ⟨⟨h.1, h'.1⟩, h.2.1.and h'.2.1, Stmt.AllEverywhere.and h.2.2.1 h'.2.2.1,
      Stmt.AllEverywhere.and h.2.2.2 h'.2.2.2⟩
  | .whileLoop _ _ _, h, h' =>
    ⟨⟨h.1, h'.1⟩, h.2.1.and h'.2.1, Stmt.AllEverywhere.and h.2.2 h'.2.2⟩

lemma Stmt.AllEverywhere.and {P Q : NodeCondition} : ∀ {body : List Stmt},
    Stmt.AllEverywhere P body → Stmt.AllEverywhere Q body → Stmt.AllEverywhere (P.and Q) body
  | [], _, _ => trivial
  | _ :: _, h, h' => ⟨h.1.and h'.1, Stmt.AllEverywhere.and h.2 h'.2⟩

end

/-! ## Declared variables -/

/-- A variable is given a type, an initial value or both. -/
def Stmt.HasTypeOrValue : Stmt → Prop
  | .varDecl _ ty _ => ty.isSome
  | _ => True

/-- Every variable has a type or an initial value. -/
def NodeCondition.declared : NodeCondition where
  onStmt := Stmt.HasTypeOrValue
  onExpr _ := True

/-- A program in which every variable has a type or an initial value. -/
def Program.Declared (program : Program) : Prop :=
  program.Everywhere .declared

end BlockLang
