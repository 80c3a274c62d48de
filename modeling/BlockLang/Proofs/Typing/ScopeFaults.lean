import BlockLang.Proofs.Program.ScopeFaults
import BlockLang.Proofs.Scope.Layers
import BlockLang.Proofs.Typing.Incremental

/-!
# The checker and faults of scopes

The checker stays quiet around an expression whose type it has not found.  This never hides a fault
of scopes and never adds one: whatever faults of types there are, the faults of scopes among those
that are reported are the ones that the program has without a look at types
(`Program.check_scopeFaults`).

`TypeChecker.Finds names inLoop x faults names'` says of one activity that where the names `names`
are known it finds `faults` among the faults of scopes, and that `names'` are known behind it.  What
is known of a name is its kind, so that the answers of the activity, which are types, do not matter
to the next one (`Finds.bind`).  There is a lemma for each way in which activities are put together
and for each rule of a single node, and then the checker is followed over the tree.
-/

namespace BlockLang

namespace TypeChecker

variable {c : TypeChecker} {names names' names'' : Names} {inLoop : Bool}
  {faults faults' : List Fault} {α β : Type} {x : Checking α} {f : α → Checking β}

/-- The names are known to the checker, and it is in a loop or not. -/
structure HasNames (c : TypeChecker) (names : Names) (inLoop : Bool) : Prop where
  names_eq : ∃ layers, c.symbols.HasLayers layers ∧
    names = layers.map (NameMap.relabel .identity Symbol.kind)
  inLoop_eq : inLoop = decide (c.loopDepth ≠ 0)

/-- The faults of scopes that have been found. -/
def scopeErrors (c : TypeChecker) : List Fault :=
  c.errors.filter Fault.isOfScope

/-- Where some names are known the activity finds some faults of scopes, and behind it other names
are known. -/
def Finds (names : Names) (inLoop : Bool) (x : Checking α) (faults : List Fault)
    (names' : Names) : Prop :=
  ∀ c : TypeChecker, c.HasNames names inLoop →
    (x.run c).2.HasNames names' inLoop ∧ (x.run c).2.scopeErrors = c.scopeErrors ++ faults

/-- The activity does nothing to names and to faults of scopes. -/
def Idle (x : Checking α) : Prop :=
  ∀ (names : Names) (inLoop : Bool), Finds names inLoop x [] names

lemma Finds.bind (h : Finds names inLoop x faults names')
    (h' : ∀ a, Finds names' inLoop (f a) faults' names'') :
    Finds names inLoop (x >>= f) (faults ++ faults') names'' := by
  intro c hc
  obtain ⟨hnames, hfaults⟩ := h c hc
  obtain ⟨hnames', hfaults'⟩ := h' (x.run c).1 (x.run c).2 hnames
  refine ⟨hnames', ?_⟩
  rw [← List.append_assoc, ← hfaults]
  exact hfaults'

/-- The rest finds nothing more. -/
lemma Finds.bind_idle (h : Finds names inLoop x faults names') (h' : ∀ a, Idle (f a)) :
    Finds names inLoop (x >>= f) faults names' :=
  List.append_nil faults ▸ h.bind fun a => h' a names' inLoop

lemma idle_pure (a : α) : Idle (pure a) :=
  fun _ _ c hc => ⟨hc, (List.append_nil c.scopeErrors).symm⟩

lemma Idle.bind (h : Idle x) (h' : ∀ a, Finds names inLoop (f a) faults names') :
    Finds names inLoop (x >>= f) faults names' :=
  (h names inLoop).bind h'

/-- A fault of scopes is found. -/
lemma finds_report {fault : Fault} (h : fault.isOfScope = true) :
    Finds names inLoop (report fault) [fault] names := by
  intro c hc
  refine ⟨⟨hc.names_eq, hc.inLoop_eq⟩, ?_⟩
  show (c.errors ++ [fault]).filter Fault.isOfScope = c.scopeErrors ++ [fault]
  rw [List.filter_append, List.filter_cons_of_pos h, List.filter_nil]
  rfl

/-- A fault of types is none of scopes. -/
lemma idle_report {fault : Fault} (h : fault.isOfScope = false) : Idle (report fault) := by
  intro names inLoop c hc
  refine ⟨⟨hc.names_eq, hc.inLoop_eq⟩, ?_⟩
  show (c.errors ++ [fault]).filter Fault.isOfScope = c.scopeErrors ++ []
  rw [List.filter_append, List.filter_cons_of_neg (by rw [h]; exact Bool.false_ne_true),
    List.filter_nil]
  rfl

/-- A rule that finds faults of types alone. -/
lemma Judges.idle {P : Fault → Prop} (h : Judges P x)
    (hP : ∀ fault, P fault → fault.isOfScope = false) : Idle x := by
  cases h with
  | answer a => exact idle_pure a
  | objection hfault a => exact fun _ _ => (idle_report (hP _ hfault)).bind fun _ => idle_pure a _ _

/-! ## Scopes and loops -/

lemma HasNames.ne_nil (h : c.HasNames names inLoop) : names ≠ [] := by
  obtain ⟨layers, hlayers, rfl⟩ := h.names_eq
  exact mt List.map_eq_nil_iff.mp hlayers.ne_nil

lemma HasNames.enter (h : c.HasNames names inLoop) :
    HasNames { c with symbols := c.symbols.enter } (.empty :: names) inLoop := by
  obtain ⟨layers, hlayers, rfl⟩ := h.names_eq
  exact ⟨⟨.empty :: layers, hlayers.enter, rfl⟩, h.inLoop_eq⟩

lemma HasNames.leave {top : NameMap BindingKind} (h : c.HasNames (top :: names) inLoop)
    (hne : names ≠ []) : HasNames { c with symbols := c.symbols.leave } names inLoop := by
  obtain ⟨layers, hlayers, hnames⟩ := h.names_eq
  obtain ⟨inner, outer, rfl⟩ := List.exists_cons_of_ne_nil hlayers.ne_nil
  obtain ⟨-, rfl⟩ := List.cons.inj hnames
  exact ⟨⟨outer, hlayers.leave (mt (congrArg _) hne), rfl⟩, h.inLoop_eq⟩

/-- In a scope of its own the activity may define names, which are forgotten behind it. -/
lemma Finds.inScope {top : NameMap BindingKind}
    (h : Finds (.empty :: names) inLoop x faults (top :: names)) :
    Finds names inLoop (inScope x) faults names := by
  intro c hc
  obtain ⟨hnames, hfaults⟩ := h { c with symbols := c.symbols.enter } hc.enter
  exact ⟨hnames.leave hc.ne_nil, hfaults⟩

/-- In the body of a loop. -/
lemma Finds.insideLoop [Steady x] (h : Finds names true x faults names) :
    Finds names inLoop (insideLoop x) faults names := by
  intro c hc
  have hloop : true = decide (c.loopDepth + 1 ≠ 0) :=
    (decide_eq_true c.loopDepth.succ_ne_zero).symm
  obtain ⟨hnames, hfaults⟩ := h { c with loopDepth := c.loopDepth + 1 } ⟨hc.names_eq, hloop⟩
  rw [run_insideLoop]
  exact ⟨⟨hnames.names_eq, hc.inLoop_eq⟩, hfaults⟩

/-- In a block expression, where the loops around it do not count. -/
lemma Finds.outsideLoops (h : Finds names false x faults names) :
    Finds names inLoop (outsideLoops x) faults names := by
  intro c hc
  obtain ⟨hnames, hfaults⟩ := h { c with loopDepth := 0 } ⟨hc.names_eq, rfl⟩
  rw [run_outsideLoops]
  exact ⟨⟨hnames.names_eq, hc.inLoop_eq⟩, hfaults⟩

/-! ## Single nodes -/

/-- The kind of a name is that of the innermost symbol of this name. -/
lemma HasNames.kind?_eq (h : c.HasNames names inLoop) (name : String) :
    (c.symbols.get? name).map Symbol.kind = names.kind? name := by
  obtain ⟨layers, hlayers, rfl⟩ := h.names_eq
  rw [hlayers.get?_eq, Names.kind?, List.findSome?_map, List.map_findSome?]
  congr 1
  funext layer
  exact (NameMap.get?_relabel .identity Symbol.kind layer name).symm

lemma HasNames.definesHere_eq (h : c.HasNames names inLoop) (name : String) :
    c.symbols.here.contains name = names.definesHere name := by
  obtain ⟨layers, hlayers, rfl⟩ := h.names_eq
  obtain ⟨top, outer, rfl⟩ := List.exists_cons_of_ne_nil hlayers.ne_nil
  have hname := NameMap.get?_relabel .identity Symbol.kind top name
  rw [hlayers.here_eq, NameMap.contains]
  exact ((congrArg Option.isSome hname).trans Option.isSome_map).symm

lemma HasNames.insert (h : c.HasNames names inLoop) {name : String}
    (fresh : ¬ names.definesHere name = true) (symbol : Symbol) :
    HasNames { c with symbols := c.symbols.insert name symbol } (names.define name symbol.kind)
      inLoop := by
  obtain ⟨layers, hlayers, rfl⟩ := h.names_eq
  obtain ⟨top, outer, rfl⟩ := List.exists_cons_of_ne_nil hlayers.ne_nil
  refine ⟨⟨_, hlayers.insert name symbol, (if_neg fresh).trans ?_⟩, h.inLoop_eq⟩
  exact congrArg (· :: _) (NameMap.insert_relabel .identity Symbol.kind top name symbol)

lemma finds_lookup_bind {name : String} {f : Option Symbol → Checking β}
    (h : ∀ symbol : Option Symbol, symbol.map Symbol.kind = names.kind? name →
      Finds names inLoop (f symbol) faults names') :
    Finds names inLoop (lookup name >>= f) faults names' :=
  fun c hc => h (c.symbols.get? name) (hc.kind?_eq name) c hc

lemma finds_define (name : String) (kind : BindingKind) (ty : Option Ty) (line : Nat) :
    Finds names inLoop (define ⟨name, kind, ty, line⟩)
      (if names.definesHere name then [.duplicateDefinition name line] else [])
      (names.define name kind) := by
  intro c hc
  have hdefines := hc.definesHere_eq name
  rw [run_define, SymbolTable.define]
  by_cases defined : c.symbols.here.contains name
  · rw [if_pos defined]
    rw [hdefines] at defined
    rw [if_pos defined, Names.define_of_definesHere defined]
    exact finds_report rfl c hc
  · rw [if_neg defined]
    rw [hdefines] at defined
    rw [if_neg defined]
    exact ⟨hc.insert defined ⟨name, kind, ty, line⟩, (List.append_nil c.scopeErrors).symm⟩

lemma finds_nameType (ident : Ident) :
    Finds names inLoop (nameType ident) (names.useFaults ident) names := by
  refine finds_lookup_bind fun symbol hkind => ?_
  rw [Names.useFaults, ← hkind]
  cases symbol with
  | some symbol => exact idle_pure symbol.ty names inLoop
  | none => exact (finds_report rfl).bind_idle fun _ => idle_pure none

lemma idle_unaryType (op : UnaryOp) (operand : Option Ty) (line : Nat) :
    Idle (unaryType op operand line) := by
  refine (judges_unaryType op operand line).idle ?_
  rintro _ ⟨_, rfl⟩
  rfl

lemma idle_binaryType (op : BinOp) (left right : Option Ty) (line : Nat) :
    Idle (binaryType op left right line) := by
  refine (judges_binaryType op left right line).idle ?_
  rintro _ ⟨_, _, rfl⟩
  rfl

lemma idle_condition (construct : String) (test : Option Ty) (line : Nat) :
    Idle (condition construct test line) := by
  refine (judges_condition construct test line).idle ?_
  rintro _ ⟨_, rfl⟩
  rfl

lemma finds_declaredType (declared : Option Ident) :
    Finds names inLoop (declaredType declared) (Ident.typeFaults declared) names := by
  cases declared with
  | none => exact idle_pure none names inLoop
  | some ident =>
    rw [declaredType, Ident.typeFaults]
    cases Ty.ofName? ident.name with
    | some ty => exact idle_pure (some ty) names inLoop
    | none => exact (finds_report rfl).bind_idle fun _ => idle_pure none

lemma finds_definitionType (name : Ident) (declared : Option Ident) (value : Option Ty)
    (line : Nat) : Finds names inLoop (definitionType name declared value line)
      (Ident.typeFaults declared) names := by
  obtain ⟨rest, heq, hrest⟩ := exists_definitionType_eq name declared value line
  rw [heq]
  refine (finds_declaredType declared).bind_idle fun ty => (hrest ty).idle ?_
  rintro _ ⟨_, _, rfl⟩
  rfl

lemma finds_definition (kind : BindingKind) (name : Ident) (declared : Option Ident)
    (value : Option Ty) (line : Nat) : Finds names inLoop (definition kind name declared value line)
      (names.definitionFaults name declared line) (names.define name.name kind) :=
  (finds_definitionType name declared value line).bind fun ty => finds_define name.name kind ty line

lemma finds_assignment (target : Ident) (value : Option Ty) (line : Nat) :
    Finds names inLoop (assignment target value line) (names.targetFaults target line) names := by
  obtain ⟨rest, heq, hnone, hsome⟩ := exists_assignment_eq target value line
  rw [heq]
  refine finds_lookup_bind fun found hfound => ?_
  rw [Names.targetFaults, ← hfound]
  cases found with
  | none =>
    rw [hnone]
    exact finds_report rfl
  | some symbol =>
    rw [Option.map_some]
    cases hkind : symbol.kind with
    | const =>
      rw [(hsome symbol).1 hkind]
      exact finds_report rfl
    | var =>
      refine ((hsome symbol).2 hkind).idle ?_ names inLoop
      rintro _ ⟨_, _, rfl⟩
      rfl

lemma finds_loopControl (keyword : String) (line : Nat) :
    Finds names inLoop (loopControl keyword line) (Stmt.loopFaults inLoop keyword line) names := by
  intro c hc
  have hrun : (loopControl keyword line).run c = (if c.loopDepth = 0 then
      report (.loopControlOutsideLoop keyword line) else pure () : Checking Unit).run c := rfl
  rw [hrun]
  by_cases hdepth : c.loopDepth = 0
  · obtain rfl : inLoop = false := by rw [hc.inLoop_eq]; simpa using hdepth
    rw [if_pos hdepth]
    exact finds_report rfl c hc
  · obtain rfl : inLoop = true := by rw [hc.inLoop_eq]; simpa using hdepth
    rw [if_neg hdepth]
    exact idle_pure () names true c hc

/-! ## Whole programs -/

mutual

theorem checkExpr_finds (names : Names) (inLoop : Bool) : ∀ e : Expr,
    Finds names inLoop (checkExpr e) (e.scopeFaultsIn names) names
  | .literal _ => by
    rw [checkExpr]
    exact idle_pure _ names inLoop
  | .name ident => by
    rw [checkExpr]
    exact finds_nameType ident
  | .unary op operand line => by
    rw [checkExpr]
    exact (checkExpr_finds names inLoop operand).bind_idle fun ty => idle_unaryType op ty line
  | .binary op left right line => by
    rw [checkExpr]
    exact (checkExpr_finds names inLoop left).bind fun leftTy =>
      (checkExpr_finds names inLoop right).bind_idle fun rightTy =>
      idle_binaryType op leftTy rightTy line
  | .block body line => by
    obtain ⟨top, hbody⟩ := checkStmts_finds .empty names false body
    rw [checkExpr_block, Expr.scopeFaultsIn]
    refine hbody.inScope.outsideLoops.bind fun ty => ?_
    split
    · exact idle_pure ty names inLoop
    · exact (finds_report rfl).bind_idle fun _ => idle_pure none

theorem checkStmt_finds (names : Names) (inLoop : Bool) : ∀ s : Stmt,
    Finds names inLoop (checkStmt s) (s.scopeFaultsIn names inLoop) (s.namesBehind names)
  | .constDef name ty value line | .varDef name ty value line => by
    rw [checkStmt]
    exact (checkExpr_finds names inLoop value).bind fun valueTy =>
      (finds_definition _ name ty valueTy line).bind_idle fun _ => idle_pure none
  | .varDecl name ty line => by
    rw [checkStmt]
    exact (finds_definition .var name ty none line).bind_idle fun _ => idle_pure none
  | .assign target value line => by
    rw [checkStmt]
    exact (checkExpr_finds names inLoop value).bind fun valueTy =>
      (finds_assignment target valueTy line).bind_idle fun _ => idle_pure none
  | .print value line => by
    rw [checkStmt]
    exact (checkExpr_finds names inLoop value).bind_idle fun _ => idle_pure none
  | .ifElse test thenBlock elseBlock line => by
    obtain ⟨_, hthen⟩ := checkStmts_finds .empty names inLoop thenBlock
    obtain ⟨_, helse⟩ := checkStmts_finds .empty names inLoop elseBlock
    rw [checkStmt_ifElse]
    exact (checkExpr_finds names inLoop test).bind fun ty =>
      (idle_condition "if" ty line).bind fun _ => hthen.inScope.bind fun _ =>
      helse.inScope.bind_idle fun _ => idle_pure none
  | .whileLoop test body line => by
    obtain ⟨_, hbody⟩ := checkStmts_finds .empty names true body
    rw [checkStmt_whileLoop]
    exact (checkExpr_finds names inLoop test).bind fun ty =>
      (idle_condition "while" ty line).bind fun _ =>
      hbody.inScope.insideLoop.bind_idle fun _ => idle_pure none
  | .breakLoop line | .continueLoop line => by
    rw [checkStmt]
    exact (finds_loopControl _ line).bind_idle fun _ => idle_pure none
  | .expr value => by
    rw [checkStmt]
    exact checkExpr_finds names inLoop value

/-- Statements define names in the innermost scope alone. -/
theorem checkStmts_finds (top : NameMap BindingKind) (outer : Names) (inLoop : Bool) :
    ∀ body : List Stmt, ∃ top', Finds (top :: outer) inLoop (checkStmts body)
      (Stmt.allScopeFaultsIn (top :: outer) inLoop body) (top' :: outer)
  | [] => ⟨top, idle_pure none _ inLoop⟩
  | [last] => by
    obtain ⟨top', hbehind⟩ := last.exists_namesBehind_eq top outer
    have hlast := checkStmt_finds (top :: outer) inLoop last
    rw [hbehind] at hlast
    rw [checkStmts, Stmt.allScopeFaultsIn, Stmt.allScopeFaultsIn, List.append_nil]
    exact ⟨top', hlast⟩
  | first :: second :: rest => by
    obtain ⟨top', hbehind⟩ := first.exists_namesBehind_eq top outer
    have hfirst := checkStmt_finds (top :: outer) inLoop first
    rw [hbehind] at hfirst
    obtain ⟨top'', hrest⟩ := checkStmts_finds top' outer inLoop (second :: rest)
    rw [checkStmts_cons_cons, Stmt.allScopeFaultsIn, hbehind]
    exact ⟨top'', hfirst.bind fun _ => hrest⟩

end

end TypeChecker

namespace Program

open TypeChecker

/-- Of the faults that a check hands over, those of scopes are the ones that the program has
without a look at types. -/
lemma filter_handedOver_check (program : Program) :
    (handedOver program.check).filter Fault.isOfScope = program.scopeFaults := by
  obtain ⟨top, hfinds⟩ := checkStmts_finds .empty [] false program.body
  have hnew : HasNames .new [.empty] false :=
    ⟨⟨[.empty], ScopeTree.hasLayers_root, rfl⟩, rfl⟩
  rw [check, (check_eq program .new).1]
  exact (hfinds .new hnew).2

/-- The faults of scopes do not depend on types.  The check of a program reports exactly those that
the program has by its names, loops and blocks alone, each of them once and in their order; and
programs that differ only in their literals and operators have the same ones, with the same names
and lines. -/
theorem check_scopeFaults :
    (∀ program : Program,
      (handedOver program.check).filter Fault.isOfScope = program.scopeFaults) ∧
    ∀ program program' : Program, program.SameShape program' →
      (handedOver program.check).filter Fault.isOfScope =
        (handedOver program'.check).filter Fault.isOfScope := by
  refine ⟨filter_handedOver_check, fun program program' h => ?_⟩
  rw [filter_handedOver_check, filter_handedOver_check, scopeFaults_eq h]

/-- A truth value in a sum leaves a variable without a type, and all uses of it stay quiet.  With a
number in its place nothing else is found. -/
theorem check_scopeFaults_sum :
    let body (value : Literal) (op : UnaryOp) : List Stmt := [
      .constDef ⟨"a", 1⟩ none (.literal (.int 1 1)) 1,
      .varDef ⟨"b", 2⟩ none (.binary .add (.name ⟨"a", 2⟩) (.literal value) 2) 2,
      .assign ⟨"a", 3⟩ (.unary op (.name ⟨"b", 3⟩) 3) 3,
      .print (.block [.expr (.name ⟨"c", 4⟩), .breakLoop 4] 4) 4]
    let program : Program := ⟨body (.bool true 2) .not⟩
    let program' : Program := ⟨body (.int 2 2) .neg⟩
    let faults : List Fault := [.assignToConst "a" 3, .undefinedName "c" 4,
      .loopControlOutsideLoop "break" 4, .blockWithoutValue 4]
    program.SameShape program' ∧
      (handedOver program.check).filter Fault.isOfScope =
        (handedOver program'.check).filter Fault.isOfScope ∧
      program.scopeFaults = faults ∧
      program.check = .error (.typeErrors (.binaryMismatch "+" "int" "bool" 2 :: faults)) ∧
      program'.check = .error (.typeErrors faults) := by
  intro body program program' faults
  have hshape : program.SameShape program' :=
    Stmt.AllSameShape.cons (.constDef _ _ 1 (.literal _ _))
      (.cons (.varDef _ _ 2 (.binary _ _ 2 2 (.name _) (.literal _ _)))
      (.cons (.assign _ 3 (.unary _ _ 3 3 (.name _)))
      (.cons (.print 4 (.block 4 (.cons (.expr (.name _)) (.cons (.breakLoop 4) .nil)))) .nil)))
  exact ⟨hshape, check_scopeFaults.2 program program' hshape, by cbv, by cbv, by cbv⟩

end Program

end BlockLang
