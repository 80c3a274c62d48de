import BlockLang.Typing.TypeChecker
import Mathlib.Tactic.Common

/-!
# Faults of scopes

Six kinds of faults say something about scopes: a name is not defined, defined twice, a constant or
not a type, a `break` or a `continue` has no loop around it, or a block ends without a value.
`Program.scopeFaults` finds them without a look at types.  It only follows which names are known,
and of which kind: `Names` has one map for each scope around a place.

A program of the same shape has other literals and other operators, and is otherwise the same
(`Program.SameShape`).  It has the same faults of scopes (`Program.scopeFaults_eq`).
-/

namespace BlockLang

/-- The faults that say something about scopes and not about types. -/
def Fault.isOfScope : Fault → Bool
  | .undefinedName .. | .assignToConst .. | .duplicateDefinition .. | .unknownType ..
  | .loopControlOutsideLoop .. | .blockWithoutValue .. => true
  | _ => false

/-! ## Known names -/

/-- The kinds of the names that are known at a place, with one map for each scope around it, the
innermost first. -/
abbrev Names := List (NameMap BindingKind)

namespace Names

/-- The kind of a name, as the innermost scope that has it defines it. -/
def kind? (names : Names) (name : String) : Option BindingKind :=
  names.findSome? (·.get? name)

/-- Whether the innermost scope defines a name itself. -/
def definesHere : Names → String → Bool
  | [], _ => false
  | top :: _, name => top.contains name

/-- A name gets its kind in the innermost scope, if it is new there. -/
def define : Names → String → BindingKind → Names
  | [], _, _ => []
  | top :: outer, name, kind =>
    if top.contains name then top :: outer else top.insert name kind :: outer

/-- A second definition changes nothing. -/
lemma define_of_definesHere {names : Names} {name : String} (h : names.definesHere name = true)
    (kind : BindingKind) : names.define name kind = names := by
  cases names with
  | nil => rfl
  | cons top outer => exact if_pos h

/-- A name that is used has to be known. -/
def useFaults (names : Names) (ident : Ident) : List Fault :=
  if (names.kind? ident.name).isSome then [] else [.undefinedName ident.name ident.line]

/-- A name that is assigned to has to be that of a variable. -/
def targetFaults (names : Names) (target : Ident) (line : Nat) : List Fault :=
  match names.kind? target.name with
  | none => [.undefinedName target.name line]
  | some .const => [.assignToConst target.name line]
  | some .var => []

end Names

/-- A declared type has to be one of the types. -/
def Ident.typeFaults : Option Ident → List Fault
  | none => []
  | some ident =>
    if (Ty.ofName? ident.name).isSome then [] else [.unknownType ident.name ident.line]

/-- A defined name has to be new in its scope. -/
def Names.definitionFaults (names : Names) (name : Ident) (declared : Option Ident) (line : Nat) :
    List Fault :=
  Ident.typeFaults declared ++
    if names.definesHere name.name then [.duplicateDefinition name.name line] else []

/-- A `break` and a `continue` have to be in a loop. -/
def Stmt.loopFaults (inLoop : Bool) (keyword : String) (line : Nat) : List Fault :=
  if inLoop then [] else [.loopControlOutsideLoop keyword line]

/-- The names that are known behind a statement. -/
def Stmt.namesBehind (names : Names) : Stmt → Names
  | .constDef name _ _ _ => names.define name.name .const
  | .varDef name _ _ _ | .varDecl name _ _ => names.define name.name .var
  | _ => names

/-- A statement defines a name in the innermost scope or nowhere. -/
lemma Stmt.exists_namesBehind_eq (top : NameMap BindingKind) (outer : Names) (s : Stmt) :
    ∃ top', s.namesBehind (top :: outer) = top' :: outer := by
  have hdefine : ∀ name kind, ∃ top', Names.define (top :: outer) name kind = top' :: outer := by
    intro name kind
    rw [Names.define]
    split
    · exact ⟨top, rfl⟩
    · exact ⟨top.insert name kind, rfl⟩
  cases s with
  | constDef | varDef | varDecl => exact hdefine _ _
  | _ => exact ⟨top, rfl⟩

mutual

/-- The faults of scopes in an expression. -/
def Expr.scopeFaultsIn (names : Names) : Expr → List Fault
  | .literal _ => []
  | .name ident => names.useFaults ident
  | .unary _ operand _ => operand.scopeFaultsIn names
  | .binary _ left right _ => left.scopeFaultsIn names ++ right.scopeFaultsIn names
  | .block body line =>
    Stmt.allScopeFaultsIn (.empty :: names) false body ++
      if TypeChecker.endsWithExpr body then [] else [.blockWithoutValue line]

/-- The faults of scopes in a statement. -/
def Stmt.scopeFaultsIn (names : Names) (inLoop : Bool) : Stmt → List Fault
  | .constDef name ty value line | .varDef name ty value line =>
    value.scopeFaultsIn names ++ names.definitionFaults name ty line
  | .varDecl name ty line => names.definitionFaults name ty line
  | .assign target value line => value.scopeFaultsIn names ++ names.targetFaults target line
  | .print value _ | .expr value => value.scopeFaultsIn names
  | .ifElse test thenBlock elseBlock _ =>
    test.scopeFaultsIn names ++ (Stmt.allScopeFaultsIn (.empty :: names) inLoop thenBlock ++
      Stmt.allScopeFaultsIn (.empty :: names) inLoop elseBlock)
  | .whileLoop test body _ =>
    test.scopeFaultsIn names ++ Stmt.allScopeFaultsIn (.empty :: names) true body
  | .breakLoop line => Stmt.loopFaults inLoop "break" line
  | .continueLoop line => Stmt.loopFaults inLoop "continue" line

/-- The faults of scopes in statements, each of which knows the names of those before it. -/
def Stmt.allScopeFaultsIn (names : Names) (inLoop : Bool) : List Stmt → List Fault
  | [] => []
  | first :: rest =>
    first.scopeFaultsIn names inLoop ++
      Stmt.allScopeFaultsIn (first.namesBehind names) inLoop rest

end

/-- The faults of scopes in a program. -/
def Program.scopeFaults (program : Program) : List Fault :=
  Stmt.allScopeFaultsIn [.empty] false program.body

/-! ## Programs of the same shape -/

mutual

/-- The expressions differ only in their literals and operators, and in the lines of these.  What
is put in the place of an operator takes as many operands. -/
inductive Expr.SameShape : Expr → Expr → Prop
  | literal (value value' : Literal) : Expr.SameShape (.literal value) (.literal value')
  | name (ident : Ident) : Expr.SameShape (.name ident) (.name ident)
  | unary (op op' : UnaryOp) {operand operand' : Expr} (line line' : Nat)
      (h : Expr.SameShape operand operand') :
      Expr.SameShape (.unary op operand line) (.unary op' operand' line')
  | binary (op op' : BinOp) {left left' right right' : Expr} (line line' : Nat)
      (hleft : Expr.SameShape left left') (hright : Expr.SameShape right right') :
      Expr.SameShape (.binary op left right line) (.binary op' left' right' line')
  | block {body body' : List Stmt} (line : Nat) (h : Stmt.AllSameShape body body') :
      Expr.SameShape (.block body line) (.block body' line)

/-- The statements differ only in their literals and operators. -/
inductive Stmt.SameShape : Stmt → Stmt → Prop
  | constDef (name : Ident) (ty : Option Ident) {value value' : Expr} (line : Nat)
      (h : Expr.SameShape value value') :
      Stmt.SameShape (.constDef name ty value line) (.constDef name ty value' line)
  | varDef (name : Ident) (ty : Option Ident) {value value' : Expr} (line : Nat)
      (h : Expr.SameShape value value') :
      Stmt.SameShape (.varDef name ty value line) (.varDef name ty value' line)
  | varDecl (name : Ident) (ty : Option Ident) (line : Nat) :
      Stmt.SameShape (.varDecl name ty line) (.varDecl name ty line)
  | assign (target : Ident) {value value' : Expr} (line : Nat) (h : Expr.SameShape value value') :
      Stmt.SameShape (.assign target value line) (.assign target value' line)
  | print {value value' : Expr} (line : Nat) (h : Expr.SameShape value value') :
      Stmt.SameShape (.print value line) (.print value' line)
  | ifElse {test test' : Expr} {thenBlock thenBlock' elseBlock elseBlock' : List Stmt} (line : Nat)
      (htest : Expr.SameShape test test') (hthen : Stmt.AllSameShape thenBlock thenBlock')
      (helse : Stmt.AllSameShape elseBlock elseBlock') :
      Stmt.SameShape (.ifElse test thenBlock elseBlock line)
        (.ifElse test' thenBlock' elseBlock' line)
  | whileLoop {test test' : Expr} {body body' : List Stmt} (line : Nat)
      (htest : Expr.SameShape test test') (hbody : Stmt.AllSameShape body body') :
      Stmt.SameShape (.whileLoop test body line) (.whileLoop test' body' line)
  | breakLoop (line : Nat) : Stmt.SameShape (.breakLoop line) (.breakLoop line)
  | continueLoop (line : Nat) : Stmt.SameShape (.continueLoop line) (.continueLoop line)
  | expr {value value' : Expr} (h : Expr.SameShape value value') :
      Stmt.SameShape (.expr value) (.expr value')

inductive Stmt.AllSameShape : List Stmt → List Stmt → Prop
  | nil : Stmt.AllSameShape [] []
  | cons {first first' : Stmt} {rest rest' : List Stmt} (hfirst : Stmt.SameShape first first')
      (hrest : Stmt.AllSameShape rest rest') : Stmt.AllSameShape (first :: rest) (first' :: rest')

end

/-- The programs differ only in their literals and operators, at any depth. -/
def Program.SameShape (program program' : Program) : Prop :=
  Stmt.AllSameShape program.body program'.body

lemma Stmt.SameShape.namesBehind_eq {s s' : Stmt} (h : s.SameShape s') (names : Names) :
    s.namesBehind names = s'.namesBehind names := by
  cases h <;> rfl

lemma TypeChecker.endsWithExpr_eq : ∀ {body body' : List Stmt}, Stmt.AllSameShape body body' →
    endsWithExpr body = endsWithExpr body'
  | [], _, .nil => rfl
  | [_], _, .cons hfirst .nil => by cases hfirst <;> rfl
  | _ :: _ :: _, _, .cons hfirst (.cons hsecond hrest) => by
    have hbehind := endsWithExpr_eq (.cons hsecond hrest)
    cases hfirst <;> exact hbehind

mutual

lemma Expr.SameShape.scopeFaultsIn_eq (names : Names) : ∀ {e e' : Expr}, e.SameShape e' →
    e.scopeFaultsIn names = e'.scopeFaultsIn names
  | .literal _, _, .literal _ _ => rfl
  | .name _, _, .name _ => rfl
  | .unary _ _ _, _, .unary _ _ _ _ h => h.scopeFaultsIn_eq names
  | .binary _ _ _ _, _, .binary _ _ _ _ hleft hright => by
    rw [Expr.scopeFaultsIn, hleft.scopeFaultsIn_eq names, hright.scopeFaultsIn_eq names,
      Expr.scopeFaultsIn]
  | .block _ _, _, .block _ h => by
    rw [Expr.scopeFaultsIn, h.scopeFaultsIn_eq, TypeChecker.endsWithExpr_eq h, Expr.scopeFaultsIn]
termination_by structural e => e

lemma Stmt.SameShape.scopeFaultsIn_eq (names : Names) (inLoop : Bool) : ∀ {s s' : Stmt},
    s.SameShape s' → s.scopeFaultsIn names inLoop = s'.scopeFaultsIn names inLoop
  | .constDef _ _ _ _, _, .constDef _ _ _ h | .varDef _ _ _ _, _, .varDef _ _ _ h
  | .assign _ _ _, _, .assign _ _ h => by
    rw [Stmt.scopeFaultsIn, h.scopeFaultsIn_eq names, Stmt.scopeFaultsIn]
  | .print _ _, _, .print _ h | .expr _, _, .expr h => h.scopeFaultsIn_eq names
  | .varDecl _ _ _, _, .varDecl _ _ _ | .breakLoop _, _, .breakLoop _
  | .continueLoop _, _, .continueLoop _ => rfl
  | .ifElse _ _ _ _, _, .ifElse _ htest hthen helse => by
    rw [Stmt.scopeFaultsIn, htest.scopeFaultsIn_eq names, hthen.scopeFaultsIn_eq,
      helse.scopeFaultsIn_eq, Stmt.scopeFaultsIn]
  | .whileLoop _ _ _, _, .whileLoop _ htest hbody => by
    rw [Stmt.scopeFaultsIn, htest.scopeFaultsIn_eq names, hbody.scopeFaultsIn_eq,
      Stmt.scopeFaultsIn]
termination_by structural s => s

lemma Stmt.AllSameShape.scopeFaultsIn_eq (names : Names) (inLoop : Bool) :
    ∀ {body body' : List Stmt}, Stmt.AllSameShape body body' →
      Stmt.allScopeFaultsIn names inLoop body = Stmt.allScopeFaultsIn names inLoop body'
  | [], _, .nil => rfl
  | _ :: _, _, .cons hfirst hrest => by
    rw [Stmt.allScopeFaultsIn, hfirst.scopeFaultsIn_eq names inLoop, hfirst.namesBehind_eq names,
      hrest.scopeFaultsIn_eq, Stmt.allScopeFaultsIn]
termination_by structural body => body

end

/-- Literals and operators do not matter to scopes. -/
theorem Program.scopeFaults_eq {program program' : Program} (h : program.SameShape program') :
    program.scopeFaults = program'.scopeFaults :=
  Stmt.AllSameShape.scopeFaultsIn_eq [.empty] false h

end BlockLang
