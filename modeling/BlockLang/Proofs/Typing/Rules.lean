import BlockLang.Proofs.Typing.Context

/-!
# The typing rules

When a program makes sense, said without a checker: four judgements, given by their rules.

* `HasType Γ e ty`: in the context `Γ` the expression `e` has the type `ty`;
* `HasBodyType Γ body ty`: the statements `body` of a block expression end with an expression, and
  that has the type `ty`;
* `Admits Γ inLoop s Δ`: the statement `s` may stand in `Γ`, and `Δ` is known behind it;
* `AdmitsAll Γ inLoop body Δ`: the same for statements one behind the other.

`inLoop` says whether a `break` or a `continue` may stand there: it holds in the body of a loop
and no longer in a block expression inside of it.  Blocks are typed with a new scope in front of
the context, which is gone behind them.

A program is `WellTyped` if its statements may stand where nothing is known.
-/

namespace BlockLang

/-! ## The tables as relations -/

lemma Ty.ofUnary?_eq_some_iff {op : UnaryOp} {ty result : Ty} :
    ofUnary? op ty = some result ↔ ⟨op, ty, result⟩ ∈ unaryTable := by
  constructor
  · intro h
    obtain ⟨row, hrow, rfl⟩ := Option.map_eq_some_iff.mp h
    have hfits := List.find?_some hrow
    simp only [Bool.and_eq_true, decide_eq_true_eq] at hfits
    obtain ⟨rfl, rfl⟩ := hfits
    exact List.mem_of_find?_eq_some hrow
  · have hall : ∀ row ∈ unaryTable, ofUnary? row.op row.operand = some row.result := by decide
    exact fun h => hall _ h

lemma Ty.ofBinary?_eq_some_iff {op : BinOp} {left right result : Ty} :
    ofBinary? op left right = some result ↔ ⟨op, left, right, result⟩ ∈ binaryTable := by
  constructor
  · intro h
    obtain ⟨row, hrow, rfl⟩ := Option.map_eq_some_iff.mp h
    have hfits := List.find?_some hrow
    simp only [Bool.and_eq_true, decide_eq_true_eq] at hfits
    obtain ⟨⟨rfl, rfl⟩, rfl⟩ := hfits
    exact List.mem_of_find?_eq_some hrow
  · have hall : ∀ row ∈ binaryTable, ofBinary? row.op row.left row.right = some row.result := by
      decide
    exact fun h => hall _ h

lemma Ty.ofName?_eq_some_iff {text : String} {ty : Ty} :
    ofName? text = some ty ↔ ty.name = text := by
  constructor
  · exact name_of_ofName?
  · rintro rfl
    exact ofName?_name ty

/-! ## Judgements -/

/-- A type is what a definition declares, if the definition declares one. -/
def Ty.Annotates (ty : Ty) (declared : Option Ident) : Prop :=
  ∀ ident ∈ declared, ty.name = ident.name

mutual

/-- The type of an expression. -/
inductive HasType : Context → Expr → Ty → Prop
  | literal (Γ : Context) (value : Literal) : HasType Γ (.literal value) (Ty.ofLiteral value)
  | name {Γ : Context} {ident : Ident} {d : Declaration} (known : Γ.Resolves ident.name d) :
      HasType Γ (.name ident) d.ty
  | unary {Γ : Context} {op : UnaryOp} {operand : Expr} {line : Nat} {ty result : Ty}
      (typed : HasType Γ operand ty) (row : ⟨op, ty, result⟩ ∈ Ty.unaryTable) :
      HasType Γ (.unary op operand line) result
  | binary {Γ : Context} {op : BinOp} {left right : Expr} {line : Nat}
      {leftTy rightTy result : Ty} (leftTyped : HasType Γ left leftTy)
      (rightTyped : HasType Γ right rightTy)
      (row : ⟨op, leftTy, rightTy, result⟩ ∈ Ty.binaryTable) :
      HasType Γ (.binary op left right line) result
  | block {Γ : Context} {body : List Stmt} {line : Nat} {ty : Ty}
      (typed : HasBodyType ([] :: Γ) body ty) : HasType Γ (.block body line) ty

/-- The type of the expression at the end of statements that no loop surrounds. -/
inductive HasBodyType : Context → List Stmt → Ty → Prop
  | last {Γ : Context} {value : Expr} {ty : Ty} (typed : HasType Γ value ty) :
      HasBodyType Γ [.expr value] ty
  | behind {Γ Δ : Context} {first : Stmt} {rest : List Stmt} {ty : Ty}
      (admitted : Admits Γ false first Δ) (typed : HasBodyType Δ rest ty) :
      HasBodyType Γ (first :: rest) ty

/-- Where a statement may stand, and what is known behind it. -/
inductive Admits : Context → Bool → Stmt → Context → Prop
  | constDef {Γ Δ : Context} {inLoop : Bool} {name : Ident} {declared : Option Ident}
      {value : Expr} {line : Nat} {ty : Ty} (typed : HasType Γ value ty)
      (annotated : ty.Annotates declared) (defined : Γ.Declares ⟨name.name, .const, ty⟩ Δ) :
      Admits Γ inLoop (.constDef name declared value line) Δ
  | varDef {Γ Δ : Context} {inLoop : Bool} {name : Ident} {declared : Option Ident}
      {value : Expr} {line : Nat} {ty : Ty} (typed : HasType Γ value ty)
      (annotated : ty.Annotates declared) (defined : Γ.Declares ⟨name.name, .var, ty⟩ Δ) :
      Admits Γ inLoop (.varDef name declared value line) Δ
  | varDecl {Γ Δ : Context} {inLoop : Bool} {name declared : Ident} {line : Nat} {ty : Ty}
      (annotated : ty.name = declared.name) (defined : Γ.Declares ⟨name.name, .var, ty⟩ Δ) :
      Admits Γ inLoop (.varDecl name (some declared) line) Δ
  | assign {Γ : Context} {inLoop : Bool} {target : Ident} {value : Expr} {line : Nat}
      {d : Declaration} (typed : HasType Γ value d.ty) (known : Γ.Resolves target.name d)
      (assignable : d.kind = .var) : Admits Γ inLoop (.assign target value line) Γ
  | print {Γ : Context} {inLoop : Bool} {value : Expr} {line : Nat} {ty : Ty}
      (typed : HasType Γ value ty) : Admits Γ inLoop (.print value line) Γ
  | ifElse {Γ Δ Δ' : Context} {inLoop : Bool} {test : Expr} {thenBlock elseBlock : List Stmt}
      {line : Nat} (typed : HasType Γ test .bool)
      (thenAdmitted : AdmitsAll ([] :: Γ) inLoop thenBlock Δ)
      (elseAdmitted : AdmitsAll ([] :: Γ) inLoop elseBlock Δ') :
      Admits Γ inLoop (.ifElse test thenBlock elseBlock line) Γ
  | whileLoop {Γ Δ : Context} {inLoop : Bool} {test : Expr} {body : List Stmt} {line : Nat}
      (typed : HasType Γ test .bool) (admitted : AdmitsAll ([] :: Γ) true body Δ) :
      Admits Γ inLoop (.whileLoop test body line) Γ
  | breakLoop {Γ : Context} {line : Nat} : Admits Γ true (.breakLoop line) Γ
  | continueLoop {Γ : Context} {line : Nat} : Admits Γ true (.continueLoop line) Γ
  | expr {Γ : Context} {inLoop : Bool} {value : Expr} {ty : Ty} (typed : HasType Γ value ty) :
      Admits Γ inLoop (.expr value) Γ

/-- Where statements may stand, and what is known behind the last one. -/
inductive AdmitsAll : Context → Bool → List Stmt → Context → Prop
  | nil {Γ : Context} {inLoop : Bool} : AdmitsAll Γ inLoop [] Γ
  | cons {Γ Δ Δ' : Context} {inLoop : Bool} {first : Stmt} {rest : List Stmt}
      (admitted : Admits Γ inLoop first Δ) (restAdmitted : AdmitsAll Δ inLoop rest Δ') :
      AdmitsAll Γ inLoop (first :: rest) Δ'

end

/-- A program whose statements may stand in the outermost scope, outside of any loop. -/
def Program.WellTyped (program : Program) : Prop :=
  ∃ Δ, AdmitsAll [[]] false program.body Δ

/-- Statements that have a type may stand where they are. -/
lemma HasBodyType.admitsAll {body : List Stmt} {Γ : Context} {ty : Ty}
    (h : HasBodyType Γ body ty) : ∃ Δ, AdmitsAll Γ false body Δ := by
  induction body generalizing Γ with
  | nil => cases h
  | cons first rest ih =>
    cases h with
    | last typed => exact ⟨_, .cons (.expr typed) .nil⟩
    | behind admitted typed =>
      obtain ⟨Δ, restAdmitted⟩ := ih typed
      exact ⟨Δ, .cons admitted restAdmitted⟩

/-! ## What statements leave alone

A statement adds to the innermost scope at most, so the scopes around it are the same behind it. -/

lemma Admits.tail_eq {Γ Δ : Context} {inLoop : Bool} {s : Stmt} (h : Admits Γ inLoop s Δ) :
    Δ.tail = Γ.tail := by
  cases h with
  | constDef _ _ defined => exact defined.tail_eq
  | varDef _ _ defined => exact defined.tail_eq
  | varDecl _ defined => exact defined.tail_eq
  | _ => rfl

lemma AdmitsAll.tail_eq {body : List Stmt} {Γ Δ : Context} {inLoop : Bool}
    (h : AdmitsAll Γ inLoop body Δ) : Δ.tail = Γ.tail := by
  induction body generalizing Γ with
  | nil =>
    cases h
    rfl
  | cons first rest ih =>
    cases h with
    | cons admitted restAdmitted => exact (ih restAdmitted).trans admitted.tail_eq

end BlockLang
