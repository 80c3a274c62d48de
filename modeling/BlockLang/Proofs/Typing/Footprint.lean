import BlockLang.Proofs.Program.Counting
import BlockLang.Proofs.Scope.Layers
import BlockLang.Proofs.Typing.Incremental

/-!
# What a check leaves behind

A check comes back to the scope and to the number of loops from which it has set out, whatever it
finds on its way.  It leaves two scopes behind for each `if`, one for each `while` and one for each
block that stands for a value, because it visits all of them.  No symbol is changed, and of the
scopes that were there before only the current one has new symbols (`TypeChecker.check_footprint`).

`ScopeTree.Grown` relates the scopes behind a visit to those in front of it and
`TypeChecker.Restores` says so of one activity.  There is a lemma for each way in which activities
are put together and for each rule of a single node, and then the checker is followed over the
tree.  That as many loops are counted behind a visit as in front of it holds of every activity of
the checker (`TypeChecker.Steady`).
-/

namespace BlockLang

/-! ## Scopes that have grown -/

namespace ScopeTree

variable {α : Type} {t t' t'' : ScopeTree α} {n m : Nat}

/-- The value that a name has in the scope with a given number itself. -/
def valueAt? (t : ScopeTree α) (id : Nat) (name : String) : Option α :=
  t.scopes[id]?.bind (·.names.get? name)

/-- The current scope is one of the collection. -/
def Stands (t : ScopeTree α) : Prop :=
  t.current < t.scopes.size

/-- There are `n` scopes more and the same scope is current.  Every value is still there, and the
other scopes are what they were. -/
structure Grown (n : Nat) (t t' : ScopeTree α) : Prop where
  current_eq : t'.current = t.current
  parent?_eq : t'.parent? = t.parent?
  size_eq : t'.scopes.size = t.scopes.size + n
  elsewhere : ∀ id < t.scopes.size, id ≠ t.current → t'.scopes[id]? = t.scopes[id]?
  kept : ∀ id name value, t.valueAt? id name = some value → t'.valueAt? id name = some value

lemma valueAt?_here (t : ScopeTree α) (name : String) :
    t.valueAt? t.current name = t.here.get? name := by
  rw [valueAt?, here]
  cases t.scopes[t.current]? <;> rfl

lemma stands_enter (t : ScopeTree α) : t.enter.Stands := by
  simp [Stands, enter]

namespace Grown

lemma refl (t : ScopeTree α) : Grown 0 t t :=
  ⟨rfl, rfl, rfl, fun _ _ _ => rfl, fun _ _ _ h => h⟩

lemma trans (h : Grown n t t') (h' : Grown m t' t'') : Grown (n + m) t t'' where
  current_eq := h'.current_eq.trans h.current_eq
  parent?_eq := h'.parent?_eq.trans h.parent?_eq
  size_eq := by rw [h'.size_eq, h.size_eq, Nat.add_assoc]
  elsewhere id hid hne := by
    have hid' : id < t'.scopes.size := hid.trans_le (by rw [h.size_eq]; exact Nat.le_add_right _ _)
    rw [h'.elsewhere id hid' (by rwa [h.current_eq]), h.elsewhere id hid hne]
  kept id name value hvalue := h'.kept id name value (h.kept id name value hvalue)

lemma stands (h : Grown n t t') (ht : t.Stands) : t'.Stands := by
  rw [Stands, h.current_eq, h.size_eq]
  exact ht.trans_le (Nat.le_add_right _ _)

/-- A new name in the current scope. -/
lemma insert {name : String} (fresh : t.here.get? name = none) (value : α) :
    Grown 0 t (t.insert name value) where
  current_eq := rfl
  parent?_eq := by
    rw [parent?, parent?, ScopeTree.insert, insertAt, Array.getElem?_modify, if_pos rfl]
    cases t.scopes[t.current]? <;> rfl
  size_eq := size_insertAt t t.current name value
  elsewhere id _ hne := by
    rw [ScopeTree.insert, insertAt, Array.getElem?_modify, if_neg hne.symm]
  kept id other old hold := by
    by_cases hid : id = t.current
    · subst hid
      have hother : other ≠ name := by
        rintro rfl
        rw [valueAt?_here, fresh] at hold
        cases hold
      rw [valueAt?] at hold ⊢
      rw [ScopeTree.insert, insertAt, Array.getElem?_modify, if_pos rfl]
      cases hscope : t.scopes[t.current]? with
      | none =>
        rw [hscope] at hold
        cases hold
      | some scope =>
        rw [hscope] at hold
        show (scope.names.insert name value).get? other = some old
        rw [NameMap.get?_insert, if_neg hother]
        exact hold
    · rw [valueAt?, ScopeTree.insert, insertAt, Array.getElem?_modify, if_neg (Ne.symm hid)]
      exact hold

/-- Behind a scope of its own everything is as it was, and the scope is left. -/
lemma block (ht : t.Stands) (h : Grown n t.enter t') : Grown (1 + n) t t'.leave := by
  have hparent : t'.parent? = some t.current := by rw [h.parent?_eq, parent?_enter]
  have hleave : t'.leave = ⟨t'.scopes, t.current⟩ := by
    rw [leave, hparent]
  -- The scope that was entered is behind all those that there were, so none of these has changed.
  have hsame : ∀ id < t.scopes.size, t'.scopes[id]? = t.scopes[id]? := by
    intro id hid
    rw [h.elsewhere id (by simp [enter]; omega) hid.ne, enter, Array.getElem?_push_lt hid,
      Array.getElem?_eq_getElem hid]
  rw [hleave]
  refine ⟨rfl, congrArg (·.bind Scope.parent) (hsame t.current ht), ?_,
    fun id hid _ => hsame id hid, ?_⟩
  · rw [h.size_eq, enter, Array.size_push, Nat.add_assoc]
  · intro id name value hvalue
    have hid : id < t.scopes.size := by
      by_contra hid
      rw [valueAt?, Array.getElem?_eq_none (Nat.not_lt.mp hid)] at hvalue
      cases hvalue
    rw [valueAt?] at hvalue ⊢
    rwa [hsame id hid]

/-- Behind a visit the same maps are below the top one. -/
lemma exists_hasLayers {layers : List (NameMap α)} (h : Grown n t t')
    (hlayers : t.HasLayers layers) : ∃ layers', t'.HasLayers layers' := by
  have hstands : t'.Stands := h.stands (Chain.lt_size hlayers)
  obtain ⟨⟨parent, names⟩, hscope⟩ : ∃ scope, t'.scopes[t'.current]? = some scope :=
    ⟨_, Array.getElem?_eq_getElem hstands⟩
  have hparent : t.scopes[t.current]?.bind (·.parent) = parent := by
    rw [show t.scopes[t.current]?.bind (·.parent) = t.parent? from rfl, ← h.parent?_eq, parent?,
      hscope]
    rfl
  cases hlayers with
  | outermost found =>
    rw [found] at hparent
    obtain rfl : none = parent := hparent
    exact ⟨[names], .outermost hscope⟩
  | @inside _ outer _ layers found older around =>
    rw [found] at hparent
    obtain rfl : some outer = parent := hparent
    have hcurrent : t.current < t.scopes.size := (Array.getElem?_eq_some_iff.mp found).1
    have haround : Chain t'.scopes outer layers :=
      around.congr fun i hi => h.elsewhere i (by omega) (by omega)
    exact ⟨names :: layers, .inside hscope (by rwa [h.current_eq]) haround⟩

end Grown

/-- The outermost scope is never left, so that there are always maps. -/
lemma HasLayers.exists_leave {layers : List (NameMap α)} (h : t.HasLayers layers) :
    ∃ layers', t.leave.HasLayers layers' := by
  cases h with
  | @outermost _ names found =>
    have hparent : t.parent? = none := by
      rw [parent?, found]
      rfl
    refine ⟨[names], ?_⟩
    rw [ScopeTree.leave, hparent]
    exact .outermost found
  | inside found older around =>
    exact ⟨_, HasLayers.leave (.inside found older around) around.ne_nil⟩

end ScopeTree

namespace TypeChecker

variable {α β : Type} {x : Checking α} {f : α → Checking β} {n m : Nat} {line : Nat}

/-- The activity comes back to the scope from which it has set out, and leaves `n` scopes
behind. -/
def Restores (n : Nat) (x : Checking α) : Prop :=
  ∀ c : TypeChecker, c.symbols.Stands → c.symbols.Grown n (x.run c).2.symbols

lemma restores_pure (a : α) : Restores 0 (pure a) :=
  fun c _ => .refl c.symbols

lemma Restores.bind (h : Restores n x) (h' : ∀ a, Restores m (f a)) :
    Restores (n + m) (x >>= f) := by
  intro c hc
  have hgrown := h c hc
  exact hgrown.trans (h' (x.run c).1 (x.run c).2 (hgrown.stands hc))

lemma Restores.of_eq (h : Restores n x) (hn : n = m) : Restores m x :=
  hn ▸ h

/-- Behind the activity no more scopes are entered. -/
lemma Restores.bind_leaf (h : Restores n x) (h' : ∀ a, Restores 0 (f a)) : Restores n (x >>= f) :=
  h.bind h'

lemma restores_get : Restores 0 get :=
  fun c _ => .refl c.symbols

lemma restores_report (fault : Fault) : Restores 0 (report fault) :=
  fun c _ => .refl c.symbols

/-- Answers and reports leave scopes alone. -/
lemma Judges.restores {P : Fault → Prop} (h : Judges P x) : Restores 0 x := by
  cases h with
  | answer a => exact restores_pure a
  | objection _ a => exact (restores_report _).bind fun _ => restores_pure a

lemma Restores.inScope (h : Restores n x) : Restores (1 + n) (inScope x) :=
  fun c hc => .block hc (h { c with symbols := c.symbols.enter } c.symbols.stands_enter)

/-- The number of loops has no part in scopes. -/
lemma Restores.insideLoop (h : Restores n x) : Restores n (insideLoop x) :=
  fun c hc => h { c with loopDepth := c.loopDepth + 1 } hc

lemma Restores.outsideLoops (h : Restores n x) : Restores n (outsideLoops x) :=
  fun c hc => h { c with loopDepth := 0 } hc

/-! ## Single nodes -/

lemma restores_lookup (name : String) : Restores 0 (lookup name) :=
  restores_get.bind fun _ => restores_pure _

lemma restores_define (symbol : Symbol) : Restores 0 (define symbol) := by
  intro c hc
  unfold define SymbolTable.define
  rw [StateT.run_bind, StateT.run_get]
  by_cases defined : c.symbols.here.contains symbol.name
  · simp only [if_pos defined, pure_bind]
    exact restores_report _ c hc
  · simp only [if_neg defined, pure_bind]
    have fresh : c.symbols.here.get? symbol.name = none := by
      rw [NameMap.contains] at defined
      exact Option.not_isSome_iff_eq_none.mp defined
    exact .insert fresh symbol

lemma restores_nameType (ident : Ident) : Restores 0 (nameType ident) := by
  refine (restores_lookup ident.name).bind_leaf fun symbol => ?_
  cases symbol with
  | some symbol => exact restores_pure symbol.ty
  | none => exact (restores_report _).bind fun _ => restores_pure none

lemma restores_definitionType (name : Ident) (declared : Option Ident) (value : Option Ty)
    (line : Nat) : Restores 0 (definitionType name declared value line) := by
  obtain ⟨rest, heq, hrest⟩ := exists_definitionType_eq name declared value line
  rw [heq]
  exact (judges_declaredType declared).restores.bind fun ty => (hrest ty).restores

lemma restores_definition (kind : BindingKind) (name : Ident) (declared : Option Ident)
    (value : Option Ty) (line : Nat) : Restores 0 (definition kind name declared value line) :=
  (restores_definitionType name declared value line).bind fun _ => restores_define _

lemma restores_assignment (target : Ident) (value : Option Ty) (line : Nat) :
    Restores 0 (assignment target value line) := by
  obtain ⟨rest, heq, hnone, hsome⟩ := exists_assignment_eq target value line
  rw [heq]
  refine (restores_lookup target.name).bind_leaf fun found => ?_
  cases found with
  | none =>
    rw [hnone]
    exact restores_report _
  | some symbol =>
    cases hkind : symbol.kind with
    | const =>
      rw [(hsome symbol).1 hkind]
      exact restores_report _
    | var => exact ((hsome symbol).2 hkind).restores

lemma restores_loopControl (keyword : String) (line : Nat) :
    Restores 0 (loopControl keyword line) := by
  refine restores_get.bind_leaf fun c => ?_
  split
  · exact restores_report _
  · exact restores_pure ()

end TypeChecker

/-- How many scopes are left behind for each node. -/
def NodeWeight.scopes : NodeWeight :=
  ifs + ifs + whiles + blocks

namespace TypeChecker

/-! ## Whole programs -/

mutual

theorem checkExpr_restores : ∀ e : Expr, Restores (e.total .scopes) (checkExpr e)
  | .literal _ => by
    rw [checkExpr]
    exact restores_pure _
  | .name ident => by
    rw [checkExpr]
    exact restores_nameType ident
  | .unary op operand line => by
    rw [checkExpr]
    refine Restores.of_eq ?_ (Nat.zero_add _).symm
    exact (checkExpr_restores operand).bind_leaf fun ty => (judges_unaryType op ty line).restores
  | .binary op left right line => by
    rw [checkExpr]
    refine Restores.of_eq ?_ (Nat.zero_add _).symm
    exact (checkExpr_restores left).bind fun leftTy =>
      (checkExpr_restores right).bind_leaf fun rightTy =>
      (judges_binaryType op leftTy rightTy line).restores
  | .block body line => by
    rw [checkExpr_block]
    refine (checkStmts_restores body).inScope.outsideLoops.bind_leaf fun ty => ?_
    split
    · exact restores_pure ty
    · exact (restores_report _).bind fun _ => restores_pure none

theorem checkStmt_restores : ∀ s : Stmt, Restores (s.total .scopes) (checkStmt s)
  | .constDef name ty value line | .varDef name ty value line => by
    rw [checkStmt]
    refine Restores.of_eq ?_ (Nat.zero_add _).symm
    exact (checkExpr_restores value).bind_leaf fun valueTy =>
      (restores_definition _ name ty valueTy line).bind_leaf fun _ => restores_pure none
  | .varDecl name ty line => by
    rw [checkStmt]
    exact (restores_definition .var name ty none line).bind_leaf fun _ => restores_pure none
  | .assign target value line => by
    rw [checkStmt]
    refine Restores.of_eq ?_ (Nat.zero_add _).symm
    exact (checkExpr_restores value).bind_leaf fun valueTy =>
      (restores_assignment target valueTy line).bind_leaf fun _ => restores_pure none
  | .print value line => by
    rw [checkStmt]
    refine Restores.of_eq ?_ (Nat.zero_add _).symm
    exact (checkExpr_restores value).bind_leaf fun _ => restores_pure none
  | .ifElse test thenBlock elseBlock line => by
    rw [checkStmt_ifElse]
    have hvisits := (checkExpr_restores test).bind fun ty =>
      (judges_condition "if" ty line).restores.bind fun _ =>
      (checkStmts_restores thenBlock).inScope.bind fun _ =>
      (checkStmts_restores elseBlock).inScope.bind_leaf fun _ => restores_pure (none : Option Ty)
    refine hvisits.of_eq ?_
    show _ = 2 + (test.total .scopes + (Stmt.sum .scopes thenBlock + Stmt.sum .scopes elseBlock))
    omega
  | .whileLoop test body line => by
    rw [checkStmt_whileLoop]
    have hvisits := (checkExpr_restores test).bind fun ty =>
      (judges_condition "while" ty line).restores.bind fun _ =>
      (checkStmts_restores body).inScope.insideLoop.bind_leaf fun _ =>
        restores_pure (none : Option Ty)
    refine hvisits.of_eq ?_
    show _ = 1 + (test.total .scopes + Stmt.sum .scopes body)
    omega
  | .breakLoop line | .continueLoop line => by
    rw [checkStmt]
    exact (restores_loopControl _ line).bind_leaf fun _ => restores_pure none
  | .expr value => by
    rw [checkStmt]
    exact (checkExpr_restores value).of_eq (Nat.zero_add _).symm

theorem checkStmts_restores : ∀ body : List Stmt,
    Restores (Stmt.sum .scopes body) (checkStmts body)
  | [] => restores_pure none
  | [last] => by
    rw [checkStmts]
    exact checkStmt_restores last
  | first :: second :: rest => by
    rw [checkStmts_cons_cons]
    exact (checkStmt_restores first).bind fun _ => checkStmts_restores (second :: rest)

end

/-! ## Checkers that are used again -/

/-- The checkers to which checks, entering and leaving scopes and definitions lead. -/
inductive Reached : TypeChecker → Prop
  | new : Reached .new
  | check {c : TypeChecker} (program : Program) (h : Reached c) : Reached (check program c).2
  | enter {c : TypeChecker} (h : Reached c) : Reached { c with symbols := c.symbols.enter }
  | leave {c : TypeChecker} (h : Reached c) : Reached { c with symbols := c.symbols.leave }
  | define {c : TypeChecker} {symbol : Symbol} {symbols : SymbolTable} (h : Reached c)
    (defined : c.symbols.define symbol = .ok symbols) : Reached { c with symbols := symbols }

variable {c : TypeChecker}

lemma grown_check (program : Program) (hc : c.symbols.Stands) :
    c.symbols.Grown (program.total .scopes) (check program c).2.symbols ∧
      (check program c).2.loopDepth = c.loopDepth := by
  rw [(check_eq program c).2]
  exact ⟨checkStmts_restores program.body c hc, (checkStmts_steady program.body).loopDepth_eq c⟩

lemma Reached.exists_hasLayers (h : c.Reached) : ∃ layers, c.symbols.HasLayers layers := by
  induction h with
  | new => exact ⟨_, ScopeTree.hasLayers_root⟩
  | check program _ ih =>
    obtain ⟨layers, hlayers⟩ := ih
    exact (grown_check program (ScopeTree.Chain.lt_size hlayers)).1.exists_hasLayers hlayers
  | enter _ ih =>
    obtain ⟨layers, hlayers⟩ := ih
    exact ⟨_, hlayers.enter⟩
  | leave _ ih =>
    obtain ⟨layers, hlayers⟩ := ih
    exact hlayers.exists_leave
  | @define c symbol symbols _ defined ih =>
    obtain ⟨layers, hlayers⟩ := ih
    rw [SymbolTable.define] at defined
    split at defined
    · cases defined
    · cases defined
      obtain ⟨top, layers, rfl⟩ := List.exists_cons_of_ne_nil hlayers.ne_nil
      exact ⟨_, hlayers.insert symbol.name symbol⟩

/-- A check comes back to the scope and the number of loops where it began, and it enters two
scopes for each `if`, one for each `while` and one for each block that stands for a value, at any
depth and whether or not there are faults.  No symbol is changed, and of the scopes that were there
all but the current one stay as they are. -/
theorem check_footprint (program : Program) (h : c.Reached) :
    (check program c).2.symbols.current = c.symbols.current ∧
    (check program c).2.loopDepth = c.loopDepth ∧
    (check program c).2.symbols.scopes.size = c.symbols.scopes.size +
      (2 * program.total .ifs + program.total .whiles + program.total .blocks) ∧
    (∀ id name symbol, c.symbols.valueAt? id name = some symbol →
      (check program c).2.symbols.valueAt? id name = some symbol) ∧
    ∀ id < c.symbols.scopes.size, id ≠ c.symbols.current →
      (check program c).2.symbols.scopes[id]? = c.symbols.scopes[id]? := by
  obtain ⟨layers, hlayers⟩ := h.exists_hasLayers
  obtain ⟨hgrown, hdepth⟩ := grown_check program (ScopeTree.Chain.lt_size hlayers)
  have htotal : program.total .scopes =
      2 * program.total .ifs + program.total .whiles + program.total .blocks := by
    rw [NodeWeight.scopes, Program.total_add, Program.total_add, Program.total_add, two_mul]
  exact ⟨hgrown.current_eq, hdepth, htotal ▸ hgrown.size_eq, hgrown.kept, hgrown.elsewhere⟩

/-- An inner scope, and a program with a fault in each part of an `if`. -/
theorem check_footprint_inner :
    let c : TypeChecker := { new with symbols := new.symbols.enter }
    let program : Program := ⟨[.ifElse (.name ⟨"a", 1⟩) [.print (.block [] 2) 2]
      [.whileLoop (.literal (.int 1 3)) [.breakLoop 3] 3, .breakLoop 4] 1]⟩
    c.Reached ∧ (check program c).2.symbols.current = 1 ∧ (check program c).2.loopDepth = 0 ∧
      (check program c).2.symbols.scopes.size = 2 + (2 * 1 + 1 + 1) ∧
      (∀ id name symbol, c.symbols.valueAt? id name = some symbol →
        (check program c).2.symbols.valueAt? id name = some symbol) ∧
      (check program c).2.symbols.scopes[0]? = c.symbols.scopes[0]? := by
  intro c program
  have hreached : c.Reached := .enter .new
  obtain ⟨hcurrent, hdepth, hsize, hkept, helsewhere⟩ := check_footprint program hreached
  exact ⟨hreached, hcurrent, hdepth, hsize, hkept, helsewhere 0 (by decide) (by decide)⟩

end TypeChecker

end BlockLang
