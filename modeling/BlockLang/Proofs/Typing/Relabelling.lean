import BlockLang.Proofs.Program.Relabelling
import BlockLang.Proofs.Typing.Silent

/-!
# The checker and other names and lines

The checker never looks at a line, and of a name it only asks whether it is the same as another
one.  On a relabelled program it therefore finds the faults of the original one, relabelled, in
the same order (`Program.check_relabel`).  Nor does it look at a fault that it has found: what was
reported earlier stays in front of what is reported now, and changes nothing else.

`TypeChecker.Follows r x y` says of two activities that `y` does on relabelled symbols, and behind
any earlier faults, what `x` does on the original ones.  There is a lemma for each way in which
activities are put together and for each rule of a single node, and then the checker is followed
over the tree.
-/

namespace BlockLang

variable (r : Relabelling)

def Symbol.relabel (symbol : Symbol) : Symbol :=
  ⟨r.name symbol.name, symbol.kind, symbol.ty, r.line symbol.line⟩

lemma SymbolTable.define_relabel (table : SymbolTable) (symbol : Symbol) :
    SymbolTable.define (table.relabel r (Symbol.relabel r)) (symbol.relabel r) =
      match SymbolTable.define table symbol with
      | .ok table' => .ok (table'.relabel r (Symbol.relabel r))
      | .error fault => .error (fault.relabel r) := by
  have hcontains : (ScopeTree.here (table.relabel r (Symbol.relabel r))).contains
      (symbol.relabel r).name = table.here.contains symbol.name := by
    rw [ScopeTree.here_relabel]
    change (NameMap.get? _ (r.name symbol.name)).isSome = _
    rw [NameMap.get?_relabel, Option.isSome_map]
    rfl
  rw [define, define, hcontains]
  split
  · rfl
  · exact congrArg Except.ok (ScopeTree.insert_relabel r _ table symbol.name symbol)

namespace TypeChecker

/-- The checker in the same place of a relabelled program. -/
def relabel (c : TypeChecker) : TypeChecker :=
  ⟨c.symbols.relabel r (Symbol.relabel r), c.errors.map (Fault.relabel r), c.loopDepth⟩

lemma relabel_new : new.relabel r = new := by
  rw [relabel, new, ScopeTree.relabel_root]
  rfl

/-- The checker in the same place, behind faults that were found earlier. -/
def behind (earlier : List Fault) (c : TypeChecker) : TypeChecker :=
  ⟨c.symbols, earlier ++ c.errors, c.loopDepth⟩

lemma behind_nil (c : TypeChecker) : c.behind [] = c :=
  rfl

/-! ## Activities -/

variable {α β : Type} {x y : Checking α} {f g : α → Checking β}

/-- On relabelled symbols and behind any earlier faults `y` gives the answers of `x`, and reports
the faults of `x` relabelled. -/
def Follows (x y : Checking α) : Prop :=
  ∀ (earlier : List Fault) (c : TypeChecker), y.run ((c.relabel r).behind earlier) =
    ((x.run c).1, ((x.run c).2.relabel r).behind earlier)

variable {r}

lemma follows_pure (a : α) : Follows r (pure a) (pure a) :=
  fun _ _ => rfl

lemma Follows.bind (h : Follows r x y) (h' : ∀ a, Follows r (f a) (g a)) :
    Follows r (x >>= f) (y >>= g) := by
  intro earlier c
  have hfirst := h earlier c
  have hsecond := h' (x.run c).1 earlier (x.run c).2
  rw [StateT.run_bind, StateT.run_bind, hfirst]
  exact hsecond

/-- What reads the state reads the relabelled one. -/
lemma follows_get_bind {f g : TypeChecker → Checking β}
    (h : ∀ earlier c, Follows r (f c) (g ((c.relabel r).behind earlier))) :
    Follows r (get >>= f) (get >>= g) :=
  fun earlier c => h earlier c earlier c

lemma follows_report (fault : Fault) : Follows r (report fault) (report (fault.relabel r)) := by
  intro earlier c
  have herrors : (earlier ++ c.errors.map (Fault.relabel r)) ++ [fault.relabel r] =
      earlier ++ (c.errors ++ [fault]).map (Fault.relabel r) := by
    rw [List.map_append, List.map_singleton, List.append_assoc]
  exact Prod.ext rfl (congrArg (fun errors => TypeChecker.mk _ errors _) herrors)

lemma follows_enterScope : Follows r enterScope enterScope := by
  intro earlier c
  have hsymbols := ScopeTree.relabel_enter r (Symbol.relabel r) c.symbols
  exact Prod.ext rfl (congrArg (fun symbols => TypeChecker.mk symbols _ _) hsymbols)

lemma follows_leaveScope : Follows r leaveScope leaveScope := by
  intro earlier c
  have hsymbols := ScopeTree.relabel_leave r (Symbol.relabel r) c.symbols
  exact Prod.ext rfl (congrArg (fun symbols => TypeChecker.mk symbols _ _) hsymbols)

lemma follows_setLoopDepth (depth : Nat) : Follows r (setLoopDepth depth) (setLoopDepth depth) :=
  fun _ _ => rfl

lemma follows_enterLoop : Follows r enterLoop enterLoop :=
  fun _ _ => rfl

lemma follows_leaveLoop : Follows r leaveLoop leaveLoop :=
  fun _ _ => rfl

lemma Follows.inScope (h : Follows r x y) : Follows r (inScope x) (inScope y) :=
  follows_enterScope.bind fun _ => h.bind fun a => follows_leaveScope.bind fun _ => follows_pure a

lemma Follows.insideLoop (h : Follows r x y) : Follows r (insideLoop x) (insideLoop y) :=
  follows_enterLoop.bind fun _ => h.bind fun a => follows_leaveLoop.bind fun _ => follows_pure a

lemma Follows.outsideLoops (h : Follows r x y) : Follows r (outsideLoops x) (outsideLoops y) :=
  follows_get_bind fun _ c => (follows_setLoopDepth 0).bind fun _ => h.bind fun a =>
    (follows_setLoopDepth c.loopDepth).bind fun _ => follows_pure a

/-! ## Single nodes -/

/-- What is known about a name is known about the new name. -/
lemma follows_lookup_bind {name : String} {f g : Option Symbol → Checking β}
    (h : ∀ symbol, Follows r (f symbol) (g (symbol.map (Symbol.relabel r)))) :
    Follows r (lookup name >>= f) (lookup (r.name name) >>= g) := by
  intro earlier c
  have hfound : ((c.relabel r).behind earlier).symbols.get? (r.name name) =
      (c.symbols.get? name).map (Symbol.relabel r) :=
    ScopeTree.get?_relabel r (Symbol.relabel r) c.symbols name
  have hrest := h (c.symbols.get? name) earlier c
  rw [← hfound] at hrest
  exact hrest

/-- A name that is new gets its symbol, and one that is not new is reported. -/
lemma run_define (symbol : Symbol) (c : TypeChecker) : (define symbol).run c =
    match SymbolTable.define c.symbols symbol with
    | .ok symbols => ((), ⟨symbols, c.errors, c.loopDepth⟩)
    | .error fault => (report fault).run c := by
  change (match SymbolTable.define c.symbols symbol with
    | .ok symbols => _
    | .error fault => _ : Checking Unit).run c = _
  cases SymbolTable.define c.symbols symbol <;> rfl

lemma follows_define (symbol : Symbol) :
    Follows r (define symbol) (define (symbol.relabel r)) := by
  intro earlier c
  have hdefine : SymbolTable.define ((c.relabel r).behind earlier).symbols (symbol.relabel r) = _ :=
    SymbolTable.define_relabel r c.symbols symbol
  rw [run_define, run_define, hdefine]
  cases SymbolTable.define c.symbols symbol with
  | ok symbols => rfl
  | error fault => exact follows_report fault earlier c

lemma follows_nameType (ident : Ident) :
    Follows r (nameType ident) (nameType (ident.relabel r)) := by
  refine follows_lookup_bind fun symbol => ?_
  cases symbol with
  | none => exact (follows_report _).bind fun _ => follows_pure none
  | some symbol => exact follows_pure symbol.ty

lemma follows_unaryType (op : UnaryOp) (operand : Option Ty) (line : Nat) :
    Follows r (unaryType op operand line) (unaryType op operand (r.line line)) := by
  unfold unaryType
  cases operand with
  | none => exact follows_pure none
  | some ty =>
    dsimp only
    cases Ty.ofUnary? op ty with
    | none => exact (follows_report _).bind fun _ => follows_pure none
    | some result => exact follows_pure (some result)

lemma follows_binaryType (op : BinOp) (left right : Option Ty) (line : Nat) :
    Follows r (binaryType op left right line) (binaryType op left right (r.line line)) := by
  unfold binaryType
  cases left with
  | none => exact follows_pure none
  | some left =>
    cases right with
    | none => exact follows_pure none
    | some right =>
      dsimp only
      cases Ty.ofBinary? op left right with
      | none => exact (follows_report _).bind fun _ => follows_pure none
      | some result => exact follows_pure (some result)

lemma follows_declaredType (declared : Option Ident) :
    Follows r (declaredType declared) (declaredType (declared.map (Ident.relabelType r))) := by
  unfold declaredType
  cases declared with
  | none => exact follows_pure none
  | some ident =>
    have hname : (ident.relabelType r).name = ident.name := rfl
    simp only [Option.map_some, hname]
    cases Ty.ofName? ident.name with
    | none => exact (follows_report _).bind fun _ => follows_pure none
    | some ty => exact follows_pure (some ty)

lemma follows_definitionType (name : Ident) (declared : Option Ident) (value : Option Ty)
    (line : Nat) : Follows r (definitionType name declared value line)
      (definitionType (name.relabel r) (declared.map (Ident.relabelType r)) value
        (r.line line)) := by
  unfold definitionType
  refine (follows_declaredType declared).bind fun expected => ?_
  cases declared with
  | none => exact follows_pure value
  | some ident =>
    cases expected with
    | none => exact follows_pure none
    | some expected =>
      cases value with
      | none => exact follows_pure (some expected)
      | some got =>
        dsimp only [Option.map_some]
        split
        · exact (follows_report _).bind fun _ => follows_pure (some expected)
        · exact follows_pure (some expected)

lemma follows_definition (kind : BindingKind) (name : Ident) (declared : Option Ident)
    (value : Option Ty) (line : Nat) : Follows r (definition kind name declared value line)
      (definition kind (name.relabel r) (declared.map (Ident.relabelType r)) value
        (r.line line)) :=
  (follows_definitionType name declared value line).bind fun ty =>
    follows_define ⟨name.name, kind, ty, line⟩

lemma follows_assignment (target : Ident) (value : Option Ty) (line : Nat) :
    Follows r (assignment target value line)
      (assignment (target.relabel r) value (r.line line)) := by
  refine follows_lookup_bind fun symbol => ?_
  cases symbol with
  | none => exact follows_report _
  | some symbol =>
    obtain ⟨name, kind, ty, symbolLine⟩ := symbol
    cases kind with
    | const => exact follows_report _
    | var =>
      cases ty with
      | none => exact follows_pure ()
      | some expected =>
        cases value with
        | none => exact follows_pure ()
        | some got =>
          dsimp only [Option.map_some, Symbol.relabel]
          split
          · exact follows_report _
          · exact follows_pure ()

lemma follows_condition (construct : String) (test : Option Ty) (line : Nat) :
    Follows r (condition construct test line) (condition construct test (r.line line)) := by
  unfold condition
  split
  · exact follows_pure ()
  · exact follows_pure ()
  · exact follows_report _

lemma follows_loopControl (keyword : String) (line : Nat) :
    Follows r (loopControl keyword line) (loopControl keyword (r.line line)) := by
  refine follows_get_bind fun earlier c => ?_
  change Follows r (if c.loopDepth = 0 then _ else _) (if c.loopDepth = 0 then _ else _)
  split
  · exact follows_report _
  · exact follows_pure ()

lemma endsWithExpr_relabelAll (body : List Stmt) :
    endsWithExpr (Stmt.relabelAll r body) = endsWithExpr body := by
  induction body with
  | nil => rfl
  | cons first rest ih =>
    cases rest with
    | nil => cases first <;> rfl
    | cons second rest => cases first <;> exact ih

/-! ## Whole programs -/

mutual

theorem checkExpr_follows : ∀ e : Expr, Follows r (checkExpr e) (checkExpr (e.relabel r))
  | .literal value => by
    have hty : Ty.ofLiteral (value.relabel r) = Ty.ofLiteral value := by cases value <;> rfl
    rw [Expr.relabel, checkExpr, checkExpr, hty]
    exact follows_pure _
  | .name ident => follows_nameType ident
  | .unary op operand line => by
    rw [Expr.relabel, checkExpr, checkExpr]
    exact (checkExpr_follows operand).bind fun ty => follows_unaryType op ty line
  | .binary op left right line => by
    rw [Expr.relabel, checkExpr, checkExpr]
    exact (checkExpr_follows left).bind fun leftTy => (checkExpr_follows right).bind fun rightTy =>
      follows_binaryType op leftTy rightTy line
  | .block body line => by
    rw [Expr.relabel, checkExpr_block, checkExpr_block, endsWithExpr_relabelAll]
    refine (checkStmts_follows body).inScope.outsideLoops.bind fun ty => ?_
    split
    · exact follows_pure ty
    · exact (follows_report _).bind fun _ => follows_pure none

theorem checkStmt_follows : ∀ s : Stmt, Follows r (checkStmt s) (checkStmt (s.relabel r))
  | .constDef name ty value line => by
    rw [Stmt.relabel, checkStmt, checkStmt]
    exact (checkExpr_follows value).bind fun valueTy =>
      (follows_definition .const name ty valueTy line).bind fun _ => follows_pure none
  | .varDef name ty value line => by
    rw [Stmt.relabel, checkStmt, checkStmt]
    exact (checkExpr_follows value).bind fun valueTy =>
      (follows_definition .var name ty valueTy line).bind fun _ => follows_pure none
  | .varDecl name ty line => by
    rw [Stmt.relabel, checkStmt, checkStmt]
    exact (follows_definition .var name ty none line).bind fun _ => follows_pure none
  | .assign target value line => by
    rw [Stmt.relabel, checkStmt, checkStmt]
    exact (checkExpr_follows value).bind fun valueTy =>
      (follows_assignment target valueTy line).bind fun _ => follows_pure none
  | .print value line => by
    rw [Stmt.relabel, checkStmt, checkStmt]
    exact (checkExpr_follows value).bind fun _ => follows_pure none
  | .ifElse test thenBlock elseBlock line => by
    rw [Stmt.relabel, checkStmt_ifElse, checkStmt_ifElse]
    exact (checkExpr_follows test).bind fun testTy =>
      (follows_condition "if" testTy line).bind fun _ =>
      (checkStmts_follows thenBlock).inScope.bind fun _ =>
      (checkStmts_follows elseBlock).inScope.bind fun _ => follows_pure none
  | .whileLoop test body line => by
    rw [Stmt.relabel, checkStmt_whileLoop, checkStmt_whileLoop]
    exact (checkExpr_follows test).bind fun testTy =>
      (follows_condition "while" testTy line).bind fun _ =>
      (checkStmts_follows body).inScope.insideLoop.bind fun _ => follows_pure none
  | .breakLoop line => by
    rw [Stmt.relabel, checkStmt, checkStmt]
    exact (follows_loopControl "break" line).bind fun _ => follows_pure none
  | .continueLoop line => by
    rw [Stmt.relabel, checkStmt, checkStmt]
    exact (follows_loopControl "continue" line).bind fun _ => follows_pure none
  | .expr value => by
    rw [Stmt.relabel, checkStmt, checkStmt]
    exact checkExpr_follows value

theorem checkStmts_follows : ∀ body : List Stmt,
    Follows r (checkStmts body) (checkStmts (Stmt.relabelAll r body))
  | [] => follows_pure none
  | [last] => by
    rw [Stmt.relabelAll, Stmt.relabelAll, checkStmts, checkStmts]
    exact checkStmt_follows last
  | first :: second :: rest => by
    rw [Stmt.relabelAll, Stmt.relabelAll, checkStmts_cons_cons, checkStmts_cons_cons]
    exact (checkStmt_follows first).bind fun _ => checkStmts_follows (second :: rest)

end

end TypeChecker

/-- A relabelled program has the faults of the original one, relabelled and in the same order. -/
theorem Program.check_relabel (r : Relabelling) (program : Program) :
    (program.relabel r).check = program.check.mapError (Fault.relabel r) := by
  have hfollows := TypeChecker.checkStmts_follows (r := r) program.body [] .new
  rw [TypeChecker.relabel_new, TypeChecker.behind_nil, TypeChecker.behind_nil] at hfollows
  rw [check, check, TypeChecker.check, TypeChecker.check, Program.relabel, hfollows]
  generalize (TypeChecker.checkStmts program.body).run .new = ending
  obtain ⟨ty, c⟩ := ending
  have herrors : (c.relabel r).errors = c.errors.map (Fault.relabel r) := rfl
  have hempty : (c.relabel r).errors.isEmpty = c.errors.isEmpty := by
    rw [herrors, List.isEmpty_map]
  simp only [hempty]
  split
  · rfl
  · rw [herrors, ← Fault.relabelAll_eq_map]
    rfl

end BlockLang
