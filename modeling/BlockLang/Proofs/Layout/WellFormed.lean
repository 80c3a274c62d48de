import BlockLang.Decimal.Reading
import BlockLang.Decimal.Text
import BlockLang.Proofs.Decimal.Bits
import BlockLang.Proofs.Program.Everywhere
import BlockLang.Token.Lexer

/-!
# Trees that can be written

Which trees have a canonical form that stands for them (`Program.WellFormed`), and when two trees
are the same up to their lines (`Program.eraseLines`).

A tree is well formed if constants have literals as values, variables have a type or a value,
names and the names of types are names, and literals are without a sign.  That the text of a float
is read as this float is a property of the conversion of floats, and not of the tree
(`Program.FloatsReadBack`).

In what is parsed a float may also be infinite, because its digits were too many.  Such a tree is
spelled (`Program.Spelled`), and it is well formed if all floats fit (`Program.FloatsFit`).
-/

namespace BlockLang

/-! ## Trees without lines -/

def Ident.eraseLine (ident : Ident) : Ident :=
  ⟨ident.name, 0⟩

def Literal.eraseLine : Literal → Literal
  | .int value _ => .int value 0
  | .float value _ => .float value 0
  | .bool value _ => .bool value 0
  | .char value _ => .char value 0

mutual

/-- An expression with all its lines set to `0`. -/
def Expr.eraseLines : Expr → Expr
  | .literal value => .literal value.eraseLine
  | .name ident => .name ident.eraseLine
  | .unary op operand _ => .unary op operand.eraseLines 0
  | .binary op left right _ => .binary op left.eraseLines right.eraseLines 0
  | .block body _ => .block (Stmt.eraseAllLines body) 0

/-- A statement with all its lines set to `0`. -/
def Stmt.eraseLines : Stmt → Stmt
  | .constDef name ty value _ =>
    .constDef name.eraseLine (ty.map Ident.eraseLine) value.eraseLines 0
  | .varDef name ty value _ => .varDef name.eraseLine (ty.map Ident.eraseLine) value.eraseLines 0
  | .varDecl name ty _ => .varDecl name.eraseLine (ty.map Ident.eraseLine) 0
  | .assign target value _ => .assign target.eraseLine value.eraseLines 0
  | .print value _ => .print value.eraseLines 0
  | .ifElse test thenBlock elseBlock _ =>
    .ifElse test.eraseLines (Stmt.eraseAllLines thenBlock) (Stmt.eraseAllLines elseBlock) 0
  | .whileLoop test body _ => .whileLoop test.eraseLines (Stmt.eraseAllLines body) 0
  | .breakLoop _ => .breakLoop 0
  | .continueLoop _ => .continueLoop 0
  | .expr value => .expr value.eraseLines

def Stmt.eraseAllLines : List Stmt → List Stmt
  | [] => []
  | first :: rest => first.eraseLines :: Stmt.eraseAllLines rest

end

/-- A program with all its lines set to `0`. -/
def Program.eraseLines (program : Program) : Program :=
  ⟨Stmt.eraseAllLines program.body⟩

/-! ## Well-formed trees -/

/-- A letter or an underscore and then letters, underscores and digits. -/
def isWord (text : String) : Bool :=
  match text.toList with
  | [] => false
  | first :: tail => Cursor.isWordStart first && tail.all Cursor.isWordChar

/-- A word that is no keyword. -/
def Ident.IsName (ident : Ident) : Prop :=
  isWord ident.name = true ∧ TokenKind.ofKeyword? ident.name = none

/-- Integers that are not negative and floats that are finite and have no sign.  All other
literals can be written anyway. -/
def Literal.IsWritten : Literal → Prop
  | .int value _ => 0 ≤ value.toInt
  | .float value _ => Decimal.Parts.ofFloat value = .zero false ∨
      ∃ size, Decimal.Parts.ofFloat value = .finite false size
  | .bool _ _ | .char _ _ => True

/-- What a statement needs in order to be written, apart from what is in it. -/
def Stmt.IsWritten : Stmt → Prop
  | .constDef name ty value _ =>
    name.IsName ∧ (∀ ident ∈ ty, ident.IsName) ∧ ∃ literal, value = .literal literal
  | .varDef name ty _ _ => name.IsName ∧ ∀ ident ∈ ty, ident.IsName
  | .varDecl name ty _ => name.IsName ∧ (∀ ident ∈ ty, ident.IsName) ∧ ty.isSome = true
  | .assign target _ _ => target.IsName
  | _ => True

/-- What an expression needs in order to be written, apart from what is in it. -/
def Expr.IsWritten : Expr → Prop
  | .literal value => value.IsWritten
  | .name ident => ident.IsName
  | _ => True

def NodeCondition.wellFormed : NodeCondition where
  onStmt := Stmt.IsWritten
  onExpr := Expr.IsWritten

/-- A program all parts of which can be written, at any depth. -/
def Program.WellFormed (program : Program) : Prop :=
  program.Everywhere .wellFormed

/-- The canonical text of a float is read as this float. -/
def Expr.ReadsBack : Expr → Prop
  | .literal (.float value _) => Decimal.ofText? (Decimal.plain value) = some value
  | _ => True

def NodeCondition.floatsReadBack : NodeCondition where
  onStmt _ := True
  onExpr := Expr.ReadsBack

/-- The canonical texts of all floats of a program are read as these floats. -/
def Program.FloatsReadBack (program : Program) : Prop :=
  program.Everywhere .floatsReadBack

/-! ## Infinite floats -/

/-- Integers that are not negative and floats without a sign.  What a literal stands for has
none. -/
def Literal.IsUnsigned : Literal → Prop
  | .int value _ => 0 ≤ value.toInt
  | .float value _ => (Decimal.Parts.ofFloat value).IsUnsigned
  | .bool _ _ | .char _ _ => True

/-- What an expression needs in order to be written, except that a float may be infinite. -/
def Expr.IsSpelled : Expr → Prop
  | .literal value => value.IsUnsigned
  | .name ident => ident.IsName
  | _ => True

def NodeCondition.spelled : NodeCondition where
  onStmt := Stmt.IsWritten
  onExpr := Expr.IsSpelled

/-- A program all parts of which can be written, at any depth, except that floats may be
infinite. -/
def Program.Spelled (program : Program) : Prop :=
  program.Everywhere .spelled

/-- A float that is a literal is not infinite. -/
def Expr.FloatFits : Expr → Prop
  | .literal (.float value _) =>
    ∀ negative, Decimal.Parts.ofFloat value ≠ .infinite negative
  | _ => True

def NodeCondition.floatsFit : NodeCondition where
  onStmt _ := True
  onExpr := Expr.FloatFits

@[simp] lemma NodeCondition.onStmt_floatsFit (s : Stmt) : floatsFit.onStmt s :=
  trivial

@[simp] lemma NodeCondition.onExpr_floatsFit {e : Expr} : floatsFit.onExpr e ↔ e.FloatFits :=
  Iff.rfl

/-- No literal of a program is an infinite float. -/
def Program.FloatsFit (program : Program) : Prop :=
  program.Everywhere .floatsFit

/-- What can be written has no sign and fits, and what has no sign and fits can be written. -/
lemma Literal.isWritten_iff {value : Literal} :
    value.IsWritten ↔ value.IsUnsigned ∧ (Expr.literal value).FloatFits := by
  cases value with
  | int value line => exact (and_iff_left trivial).symm
  | float value line =>
    constructor
    · rintro (hzero | ⟨size, hfinite⟩)
      · exact ⟨.inl hzero, fun negative => by simp [hzero]⟩
      · exact ⟨.inr (.inl ⟨size, hfinite⟩), fun negative => by simp [hfinite]⟩
    · rintro ⟨hzero | hfinite | hinfinite, hfits⟩
      · exact .inl hzero
      · exact .inr hfinite
      · exact absurd hinfinite (hfits false)
  | bool value line => exact iff_of_true trivial ⟨trivial, trivial⟩
  | char value line => exact iff_of_true trivial ⟨trivial, trivial⟩

/-- A tree is well formed if it is spelled and its floats fit. -/
lemma Program.wellFormed_iff {program : Program} :
    program.WellFormed ↔ program.Spelled ∧ program.FloatsFit := by
  have hspelled : NodeCondition.wellFormed.Implies .spelled :=
    { onStmt := fun s hs => hs
      onExpr := fun e he => by
        cases e with
        | literal value => exact (Literal.isWritten_iff.mp he).1
        | _ => exact he }
  have hfits : NodeCondition.wellFormed.Implies .floatsFit :=
    { onStmt := fun s hs => trivial
      onExpr := fun e he => by
        cases e with
        | literal value => exact (Literal.isWritten_iff.mp he).2
        | _ => trivial }
  have hboth : (NodeCondition.spelled.and .floatsFit).Implies .wellFormed :=
    { onStmt := fun s hs => hs.1
      onExpr := fun e he => by
        cases e with
        | literal value => exact Literal.isWritten_iff.mpr he
        | _ => exact he.1 }
  exact ⟨fun h => ⟨Stmt.AllEverywhere.mono hspelled h, Stmt.AllEverywhere.mono hfits h⟩,
    fun h => Stmt.AllEverywhere.mono hboth (Stmt.AllEverywhere.and h.1 h.2)⟩

end BlockLang
