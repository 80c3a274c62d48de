import BlockLang.Proofs.Typing.Judging

/-!
# Checking without a fault

The checker collects faults and goes on.  What it accepts are the programs during whose whole
visit it reports nothing, so what it decides is read off its silent steps.

`Steady` says of an activity that it takes no reported fault back and that it comes back to the
number of loops with which it has begun, be it silent or not.  The rules of single nodes are steady,
and so are the visits of whole trees, `checkExpr` and its companions: the body of a loop counts one
loop more and takes it away again (`run_insideLoop`).

`Silent x c a c'` says that `x` leads from the state `c` with the answer `a` to the state `c'` and
reports nothing.  Among steady activities this splits along the sequence of steps (`silent_bind`):
no later step hides what an earlier one reported.  The lemmas behind that give, for each rule of a
single node, exactly when it is silent.
-/

namespace BlockLang.TypeChecker

variable {α β : Type} {x : Checking α} {f : α → Checking β} {a : α} {b : β}
  {c c' c'' : TypeChecker}

/-! ## Blocks and sequences -/

/-- An activity in a scope of its own. -/
def inScope (x : Checking α) : Checking α := do
  enterScope
  let a ← x
  leaveScope
  return a

/-- An activity in the body of one more loop. -/
def insideLoop (x : Checking α) : Checking α := do
  enterLoop
  let a ← x
  leaveLoop
  return a

/-- An activity for which the loops around it do not count. -/
def outsideLoops (x : Checking α) : Checking α := do
  let c ← get
  setLoopDepth 0
  let a ← x
  setLoopDepth c.loopDepth
  return a

lemma checkExpr_block (body : List Stmt) (line : Nat) :
    checkExpr (.block body line) = (do
      let ty ← outsideLoops (inScope (checkStmts body))
      if endsWithExpr body then
        return ty
      else
        report (.blockWithoutValue line)
        return none) :=
  rfl

lemma checkStmt_ifElse (test : Expr) (thenBlock elseBlock : List Stmt) (line : Nat) :
    checkStmt (.ifElse test thenBlock elseBlock line) = (do
      let testTy ← checkExpr test
      condition "if" testTy line
      let _ ← inScope (checkStmts thenBlock)
      let _ ← inScope (checkStmts elseBlock)
      return none) :=
  rfl

lemma checkStmt_whileLoop (test : Expr) (body : List Stmt) (line : Nat) :
    checkStmt (.whileLoop test body line) = (do
      let testTy ← checkExpr test
      condition "while" testTy line
      let _ ← insideLoop (inScope (checkStmts body))
      return none) :=
  rfl

lemma checkStmts_cons_cons (first second : Stmt) (rest : List Stmt) :
    checkStmts (first :: second :: rest) = (do
      let _ ← checkStmt first
      checkStmts (second :: rest)) :=
  rfl

/-! ## What every visit keeps -/

/-- An activity behind which all faults are still known that were known in front of it, and as many
loops are around. -/
class Steady (x : Checking α) : Prop where
  errors_isPrefix : ∀ c, c.errors <+: (x.run c).2.errors
  loopDepth_eq : ∀ c, (x.run c).2.loopDepth = c.loopDepth

instance steady_pure (a : α) : Steady (pure a : Checking α) :=
  ⟨fun _ => List.prefix_rfl, fun _ => rfl⟩

instance steady_bind [hx : Steady x] [hf : ∀ a, Steady (f a)] : Steady (x >>= f) :=
  ⟨fun c => (hx.errors_isPrefix c).trans ((hf _).errors_isPrefix _),
    fun c => ((hf _).loopDepth_eq _).trans (hx.loopDepth_eq c)⟩

instance steady_get : Steady (get : Checking TypeChecker) :=
  ⟨fun _ => List.prefix_rfl, fun _ => rfl⟩

instance steady_report (fault : Fault) : Steady (report fault) :=
  ⟨fun _ => List.prefix_append _ _, fun _ => rfl⟩

instance steady_enterScope : Steady enterScope :=
  ⟨fun _ => List.prefix_rfl, fun _ => rfl⟩

instance steady_leaveScope : Steady leaveScope :=
  ⟨fun _ => List.prefix_rfl, fun _ => rfl⟩

/-- Behind the body of a loop one loop less is counted, which is as many as in front of it because
the body has come back to the number with which it began. -/
lemma run_insideLoop [hx : Steady x] (c : TypeChecker) :
    (insideLoop x).run c =
      ((x.run { c with loopDepth := c.loopDepth + 1 }).1,
        { (x.run { c with loopDepth := c.loopDepth + 1 }).2 with loopDepth := c.loopDepth }) := by
  have hdepth : (x.run { c with loopDepth := c.loopDepth + 1 }).2.loopDepth = c.loopDepth + 1 :=
    hx.loopDepth_eq _
  have hrun : (insideLoop x).run c = ((x.run { c with loopDepth := c.loopDepth + 1 }).1,
      { (x.run { c with loopDepth := c.loopDepth + 1 }).2 with
        loopDepth := (x.run { c with loopDepth := c.loopDepth + 1 }).2.loopDepth - 1 }) := rfl
  rw [hrun, hdepth, Nat.add_sub_cancel]

lemma run_outsideLoops (x : Checking α) (c : TypeChecker) :
    (outsideLoops x).run c =
      ((x.run { c with loopDepth := 0 }).1,
        { (x.run { c with loopDepth := 0 }).2 with loopDepth := c.loopDepth }) :=
  rfl

instance steady_insideLoop [hx : Steady x] : Steady (insideLoop x) where
  errors_isPrefix c := by
    rw [run_insideLoop]
    exact hx.errors_isPrefix { c with loopDepth := c.loopDepth + 1 }
  loopDepth_eq c := by rw [run_insideLoop]

instance steady_outsideLoops [hx : Steady x] : Steady (outsideLoops x) :=
  ⟨fun c => hx.errors_isPrefix { c with loopDepth := 0 }, fun _ => rfl⟩

instance steady_ite {p : Prop} [Decidable p] {y : Checking α} [Steady x] [Steady y] :
    Steady (if p then x else y) := by
  split <;> infer_instance

instance steady_inScope [Steady x] : Steady (inScope x) := by
  unfold inScope
  infer_instance

instance steady_lookup (name : String) : Steady (lookup name) := by
  unfold lookup
  infer_instance

instance steady_nameType (ident : Ident) : Steady (nameType ident) := by
  unfold nameType
  refine @steady_bind _ _ _ _ _ fun found => ?_
  cases found <;> infer_instance

lemma Judges.steady {P : Fault → Prop} (h : Judges P x) : Steady x := by
  cases h <;> infer_instance

instance steady_unaryType (op : UnaryOp) (operand : Option Ty) (line : Nat) :
    Steady (unaryType op operand line) :=
  (judges_unaryType op operand line).steady

instance steady_binaryType (op : BinOp) (left right : Option Ty) (line : Nat) :
    Steady (binaryType op left right line) :=
  (judges_binaryType op left right line).steady

instance steady_declaredType (declared : Option Ident) : Steady (declaredType declared) :=
  (judges_declaredType declared).steady

instance steady_definitionType (name : Ident) (declared : Option Ident) (value : Option Ty)
    (line : Nat) : Steady (definitionType name declared value line) := by
  obtain ⟨rest, heq, hrest⟩ := exists_definitionType_eq name declared value line
  have := fun ty => (hrest ty).steady
  rw [heq]
  infer_instance

instance steady_define (symbol : Symbol) : Steady (define symbol) := by
  have hrun : ∀ c, (define symbol).run c = StateT.run (match c.symbols.define symbol with
      | .ok symbols => set { c with symbols }
      | .error fault => report fault) c := fun _ => rfl
  constructor
  · intro c
    rw [hrun]
    split
    · exact List.prefix_rfl
    · exact (steady_report _).errors_isPrefix c
  · intro c
    rw [hrun]
    split <;> rfl

instance steady_definition (kind : BindingKind) (name : Ident) (declared : Option Ident)
    (value : Option Ty) (line : Nat) : Steady (definition kind name declared value line) := by
  unfold definition
  infer_instance

instance steady_assignment (target : Ident) (value : Option Ty) (line : Nat) :
    Steady (assignment target value line) := by
  obtain ⟨rest, heq, hnone, hsome⟩ := exists_assignment_eq target value line
  rw [heq]
  refine @steady_bind _ _ _ _ _ fun found => ?_
  cases found with
  | none =>
    rw [hnone]
    infer_instance
  | some symbol =>
    cases hkind : symbol.kind with
    | const =>
      rw [(hsome symbol).1 hkind]
      infer_instance
    | var => exact ((hsome symbol).2 hkind).steady

instance steady_condition (construct : String) (test : Option Ty) (line : Nat) :
    Steady (condition construct test line) :=
  (judges_condition construct test line).steady

instance steady_loopControl (keyword : String) (line : Nat) :
    Steady (loopControl keyword line) := by
  unfold loopControl
  infer_instance

mutual

theorem checkExpr_steady : ∀ e : Expr, Steady (checkExpr e)
  | .literal value => by
    rw [checkExpr]
    infer_instance
  | .name ident => by
    rw [checkExpr]
    infer_instance
  | .unary op operand line => by
    have := checkExpr_steady operand
    rw [checkExpr]
    infer_instance
  | .binary op left right line => by
    have := checkExpr_steady left
    have := checkExpr_steady right
    rw [checkExpr]
    infer_instance
  | .block body line => by
    have := checkStmts_steady body
    rw [checkExpr_block]
    infer_instance

theorem checkStmt_steady : ∀ s : Stmt, Steady (checkStmt s)
  | .constDef name ty value line => by
    have := checkExpr_steady value
    rw [checkStmt]
    infer_instance
  | .varDef name ty value line => by
    have := checkExpr_steady value
    rw [checkStmt]
    infer_instance
  | .varDecl name ty line => by
    rw [checkStmt]
    infer_instance
  | .assign target value line => by
    have := checkExpr_steady value
    rw [checkStmt]
    infer_instance
  | .print value line => by
    have := checkExpr_steady value
    rw [checkStmt]
    infer_instance
  | .ifElse test thenBlock elseBlock line => by
    have := checkExpr_steady test
    have := checkStmts_steady thenBlock
    have := checkStmts_steady elseBlock
    rw [checkStmt_ifElse]
    infer_instance
  | .whileLoop test body line => by
    have := checkExpr_steady test
    have := checkStmts_steady body
    rw [checkStmt_whileLoop]
    infer_instance
  | .breakLoop line => by
    rw [checkStmt]
    infer_instance
  | .continueLoop line => by
    rw [checkStmt]
    infer_instance
  | .expr value => by
    rw [checkStmt]
    exact checkExpr_steady value

theorem checkStmts_steady : ∀ body : List Stmt, Steady (checkStmts body)
  | [] => by
    rw [checkStmts]
    infer_instance
  | [last] => by
    rw [checkStmts]
    exact checkStmt_steady last
  | first :: second :: rest => by
    have := checkStmt_steady first
    have := checkStmts_steady (second :: rest)
    rw [checkStmts_cons_cons]
    infer_instance

end

attribute [instance] checkExpr_steady checkStmt_steady checkStmts_steady

/-! ## Silent steps -/

/-- From the state `c` the activity leads with the answer `a` to the state `c'` and reports
nothing. -/
structure Silent (x : Checking α) (c : TypeChecker) (a : α) (c' : TypeChecker) : Prop where
  run_eq : x.run c = (a, c')
  errors_eq : c'.errors = c.errors

@[simp] lemma silent_pure {value : α} : Silent (pure value) c a c' ↔ a = value ∧ c' = c := by
  constructor
  · rintro ⟨hrun, -⟩
    cases hrun
    exact ⟨rfl, rfl⟩
  · rintro ⟨rfl, rfl⟩
    exact ⟨rfl, rfl⟩

/-- What happens silently happens silently step by step: if the first step reported a fault, the
second one could not take it back. -/
@[simp] lemma silent_bind [hx : Steady x] [hf : ∀ a, Steady (f a)] :
    Silent (x >>= f) c b c'' ↔ ∃ a c', Silent x c a c' ∧ Silent (f a) c' b c'' := by
  constructor
  · rintro ⟨hrun, herrors⟩
    have hfirst := hx.errors_isPrefix c
    have hsecond := (hf (x.run c).1).errors_isPrefix (x.run c).2
    change (StateT.run (f (x.run c).1) (x.run c).2) = (b, c'') at hrun
    rw [hrun, herrors] at hsecond
    have hsame : (x.run c).2.errors = c.errors :=
      hsecond.eq_of_length_le hfirst.length_le
    exact ⟨_, _, ⟨rfl, hsame⟩, ⟨hrun, herrors.trans hsame.symm⟩⟩
  · rintro ⟨a, c', ⟨hrun, herrors⟩, ⟨hrun', herrors'⟩⟩
    refine ⟨?_, herrors'.trans herrors⟩
    rw [StateT.run_bind, hrun]
    exact hrun'

@[simp] lemma silent_get {s : TypeChecker} : Silent get c s c' ↔ s = c ∧ c' = c := by
  constructor
  · rintro ⟨hrun, -⟩
    cases hrun
    exact ⟨rfl, rfl⟩
  · rintro ⟨rfl, rfl⟩
    exact ⟨rfl, rfl⟩

@[simp] lemma not_silent_report {fault : Fault} {u : Unit} : ¬ Silent (report fault) c u c' := by
  rintro ⟨hrun, herrors⟩
  cases hrun
  exact absurd (congrArg List.length herrors) (by simp)

/-- A change of the state outside of the faults. -/
lemma silent_modify {g : TypeChecker → TypeChecker} {u : Unit} (h : (g c).errors = c.errors) :
    Silent (modify g) c u c' ↔ c' = g c := by
  constructor
  · rintro ⟨hrun, -⟩
    cases hrun
    rfl
  · rintro rfl
    exact ⟨rfl, h⟩

@[simp] lemma silent_enterScope {u : Unit} :
    Silent enterScope c u c' ↔ c' = { c with symbols := c.symbols.enter } :=
  silent_modify rfl

@[simp] lemma silent_leaveScope {u : Unit} :
    Silent leaveScope c u c' ↔ c' = { c with symbols := c.symbols.leave } :=
  silent_modify rfl

lemma silent_inScope [Steady x] :
    Silent (inScope x) c a c' ↔ ∃ c₁, Silent x { c with symbols := c.symbols.enter } a c₁ ∧
      c' = { c₁ with symbols := c₁.symbols.leave } := by
  simp [inScope, -bind_pure_comp]

/-- An activity between two changes of the number of loops is silent where it begins with the
changed number. -/
lemma silent_between {y : Checking α} {depth : Nat} (hrun : y.run c =
    ((x.run { c with loopDepth := depth }).1,
      { (x.run { c with loopDepth := depth }).2 with loopDepth := c.loopDepth })) :
    Silent y c a c' ↔ ∃ c₁, Silent x { c with loopDepth := depth } a c₁ ∧
      c' = { c₁ with loopDepth := c.loopDepth } := by
  constructor
  · rintro ⟨hy, herrors⟩
    obtain ⟨rfl, rfl⟩ := Prod.mk.inj (hrun.symm.trans hy)
    exact ⟨_, ⟨rfl, herrors⟩, rfl⟩
  · rintro ⟨c₁, ⟨hx, herrors⟩, rfl⟩
    refine ⟨?_, herrors⟩
    rw [hrun, hx]

lemma silent_insideLoop [Steady x] :
    Silent (insideLoop x) c a c' ↔ ∃ c₁, Silent x { c with loopDepth := c.loopDepth + 1 } a c₁ ∧
      c' = { c₁ with loopDepth := c.loopDepth } :=
  silent_between (run_insideLoop c)

lemma silent_outsideLoops :
    Silent (outsideLoops x) c a c' ↔ ∃ c₁, Silent x { c with loopDepth := 0 } a c₁ ∧
      c' = { c₁ with loopDepth := c.loopDepth } :=
  silent_between (run_outsideLoops x c)

@[simp] lemma silent_lookup {name : String} {found : Option Symbol} :
    Silent (lookup name) c found c' ↔ found = c.symbols.get? name ∧ c' = c := by
  simp [lookup, and_comm, -bind_pure_comp]

/-! ## When the rules for single nodes are silent

A rule is asked about operands that have a type; the expressions around one that has none stay
quiet about it, but a fault has been reported then. -/

lemma silent_nameType {ident : Ident} {ty : Option Ty} :
    Silent (nameType ident) c ty c' ↔
      c' = c ∧ ∃ symbol, c.symbols.get? ident.name = some symbol ∧ ty = symbol.ty := by
  rw [nameType, @silent_bind _ _ _ _ _ _ _ _ fun found => by cases found <;> infer_instance]
  cases hfound : c.symbols.get? ident.name <;> simp [hfound, and_comm, -bind_pure_comp]

lemma silent_unaryType {op : UnaryOp} {ty : Ty} {line : Nat} {result : Option Ty} :
    Silent (unaryType op (some ty) line) c result c' ↔
      c' = c ∧ ∃ ty', Ty.ofUnary? op ty = some ty' ∧ result = some ty' := by
  cases h : Ty.ofUnary? op ty <;> simp [unaryType, h, and_comm, -bind_pure_comp]

lemma silent_binaryType {op : BinOp} {left right : Ty} {line : Nat} {result : Option Ty} :
    Silent (binaryType op (some left) (some right) line) c result c' ↔
      c' = c ∧ ∃ ty, Ty.ofBinary? op left right = some ty ∧ result = some ty := by
  cases h : Ty.ofBinary? op left right <;> simp [binaryType, h, and_comm, -bind_pure_comp]

lemma silent_declaredType {ident : Ident} {ty : Option Ty} :
    Silent (declaredType (some ident)) c ty c' ↔
      c' = c ∧ ∃ ty', Ty.ofName? ident.name = some ty' ∧ ty = some ty' := by
  cases h : Ty.ofName? ident.name <;> simp [declaredType, h, and_comm, -bind_pure_comp]

lemma silent_definitionType_some {name : Ident} {declared : Option Ident} {got : Ty} {line : Nat}
    {ty : Option Ty} :
    Silent (definitionType name declared (some got) line) c ty c' ↔
      c' = c ∧ ty = some got ∧ ∀ ident ∈ declared, Ty.ofName? ident.name = some got := by
  cases declared with
  | none => simp [definitionType, declaredType, and_comm, -bind_pure_comp]
  | some ident =>
    rw [definitionType, @silent_bind _ _ _ _ _ _ _ _ fun ty => ?_]
    · simp only [silent_declaredType]
      cases h : Ty.ofName? ident.name with
      | none => simp [h]
      | some expected =>
        by_cases heq : expected = got <;> simp [h, heq, and_comm, -bind_pure_comp]
    · cases ty <;> infer_instance

lemma silent_definitionType_none {name ident : Ident} {line : Nat} {ty : Option Ty} :
    Silent (definitionType name (some ident) none line) c ty c' ↔
      c' = c ∧ ∃ ty', Ty.ofName? ident.name = some ty' ∧ ty = some ty' := by
  rw [definitionType, @silent_bind _ _ _ _ _ _ _ _ fun ty => by cases ty <;> infer_instance]
  simp only [silent_declaredType]
  cases h : Ty.ofName? ident.name <;> simp [and_comm]

lemma silent_define {symbol : Symbol} {u : Unit} :
    Silent (define symbol) c u c' ↔
      c.symbols.here.get? symbol.name = none ∧
        c' = { c with symbols := c.symbols.insert symbol.name symbol } := by
  have hrun : (define symbol).run c = StateT.run (match c.symbols.define symbol with
      | .ok symbols => set { c with symbols }
      | .error fault => report fault) c := rfl
  constructor
  · rintro ⟨hsilent, herrors⟩
    rw [hrun, SymbolTable.define, NameMap.contains] at hsilent
    cases hname : c.symbols.here.get? symbol.name with
    | none =>
      simp only [hname] at hsilent
      cases hsilent
      exact ⟨rfl, rfl⟩
    | some old =>
      simp only [hname] at hsilent
      exact absurd ⟨hsilent, herrors⟩ not_silent_report
  · rintro ⟨hname, rfl⟩
    refine ⟨?_, rfl⟩
    rw [hrun, SymbolTable.define, NameMap.contains, hname]
    rfl

/-- An assignment of a value that has a type. -/
lemma silent_assignment {target : Ident} {got : Ty} {line : Nat} {u : Unit} :
    Silent (assignment target (some got) line) c u c' ↔
      c' = c ∧ ∃ symbol, c.symbols.get? target.name = some symbol ∧ symbol.kind = .var ∧
        ∀ expected ∈ symbol.ty, expected = got := by
  rw [assignment, @silent_bind _ _ _ _ _ _ _ _ fun found => ?_]
  · simp only [silent_lookup]
    cases hfound : c.symbols.get? target.name with
    | none => simp
    | some symbol =>
      cases hkind : symbol.kind with
      | const => simp [hkind]
      | var =>
        cases hty : symbol.ty with
        | none => simp [hkind, hty]
        | some expected => by_cases heq : expected = got <;> simp [hkind, hty, heq]
  · split
    · infer_instance
    · split
      · infer_instance
      · split <;> infer_instance

lemma silent_condition {construct : String} {ty : Ty} {line : Nat} {u : Unit} :
    Silent (condition construct (some ty) line) c u c' ↔ c' = c ∧ ty = .bool := by
  cases ty <;> simp [condition]

/-- A block expression is passed silently if its statements are, between its braces and outside of
the loops around it, and if they end with an expression. -/
lemma silent_block {body : List Stmt} {line : Nat} {ty : Option Ty} :
    Silent (checkExpr (.block body line)) c ty c' ↔
      endsWithExpr body = true ∧
        ∃ c₁, Silent (checkStmts body) { c with symbols := c.symbols.enter, loopDepth := 0 } ty c₁ ∧
          c' = { c₁ with symbols := c₁.symbols.leave, loopDepth := c.loopDepth } := by
  rw [checkExpr_block]
  by_cases hends : endsWithExpr body = true
  · simp [hends, silent_outsideLoops, silent_inScope, -bind_pure_comp]
  · simp [hends, -bind_pure_comp]

lemma silent_loopControl {keyword : String} {line : Nat} {u : Unit} :
    Silent (loopControl keyword line) c u c' ↔ c' = c ∧ c.loopDepth ≠ 0 := by
  by_cases h : c.loopDepth = 0 <;> simp [loopControl, h]

end BlockLang.TypeChecker
