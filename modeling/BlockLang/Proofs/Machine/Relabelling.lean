import BlockLang.Proofs.Machine.Endings
import BlockLang.Proofs.Program.Relabelling

/-!
# Runs and other names and lines

A run never looks at a line, and of a name it only asks which binding it has.  A relabelled program
therefore writes what the original one writes, and ends as the original one ends, with the fault
relabelled if there is one (`Program.run_relabel`).

`Machine.Follows r x y` says of two activities that `y` does on relabelled frames what `x` does on
the original ones.  There is a lemma for each way in which activities are put together and for
each single step, and then runs are followed over the tree.
-/

namespace BlockLang

variable (r : Relabelling)

/-! ## Values -/

namespace Value

lemma exactly_relabel (op : String) (line : Nat) (n : Int) :
    exactly op (r.line line) n = (exactly op line n).mapError (Fault.relabel r) := by
  rw [exactly, exactly]
  cases ofInt? n <;> rfl

lemma applyUnary_relabel (op : UnaryOp) (v : Value) (line : Nat) :
    v.applyUnary op (r.line line) = (v.applyUnary op line).mapError (Fault.relabel r) := by
  cases op <;> cases v <;> first | rfl | exact exactly_relabel r _ line _

lemma applyInts_relabel (op : BinOp) (a b : Int64) (line : Nat) :
    applyInts op a b (r.line line) = (applyInts op a b line).mapError (Fault.relabel r) := by
  cases op with
  | add | sub | mul => exact exactly_relabel r _ line _
  | div =>
    simp only [applyInts]
    split
    · rfl
    · exact exactly_relabel r _ line _
  | lt | le | gt | ge | eq | ne | and | or => rfl

lemma applyFloats_relabel (op : BinOp) (a b : Float) (line : Nat) :
    applyFloats op a b (r.line line) = (applyFloats op a b line).mapError (Fault.relabel r) := by
  cases op with
  | div =>
    simp only [applyFloats]
    split <;> rfl
  | add | sub | mul | lt | le | gt | ge | eq | ne | and | or => rfl

lemma applyBinary_relabel (op : BinOp) (left right : Value) (line : Nat) :
    left.applyBinary op right (r.line line) =
      (left.applyBinary op right line).mapError (Fault.relabel r) := by
  cases left <;> cases right
  case int.int a b => exact applyInts_relabel r op a b line
  case float.float a b => exact applyFloats_relabel r op a b line
  case char.char a b => cases op <;> rfl
  case bool.bool a b => cases op <;> rfl
  all_goals rfl

end Value

/-! ## Frames -/

namespace Environment

/-- The same values in other frames. -/
def relabel (env : Environment) : Environment :=
  ScopeTree.relabel r id env

lemma lookup_relabel (env : Environment) (name : String) :
    (env.relabel r).lookup (r.name name) = env.lookup name := by
  rw [lookup, lookup, relabel, ScopeTree.get?_relabel, Option.map_id]
  rfl

lemma assign_relabel (env : Environment) (name : String) (value : Value) (line : Nat) :
    (env.relabel r).assign (r.name name) value (r.line line) =
      match env.assign name value line with
      | .ok env' => .ok (env'.relabel r)
      | .error fault => .error (fault.relabel r) := by
  rw [assign, assign, relabel, ScopeTree.find?_relabel]
  cases env.find? name with
  | none => rfl
  | some found =>
    obtain ⟨frame, kind, old⟩ := found
    cases kind with
    | var => exact congrArg Except.ok (ScopeTree.insertAt_relabel r id env frame name _)
    | const => rfl

end Environment

namespace Machine

variable {σ : Type}

/-- The state of a run of a relabelled program that is in the same place. -/
def relabel (m : Machine σ) : Machine σ :=
  ⟨m.env.relabel r, m.out⟩

/-! ## Activities -/

variable {α β : Type} {x y : Running σ α} {f g : α → Running σ β}

/-- On relabelled frames `y` ends as `x` does, with its fault relabelled if there is one, and with
the same output. -/
def Follows (x y : Running σ α) : Prop :=
  ∀ m : Machine σ,
    y.run (m.relabel r) = ((x.run m).1.mapFault (Fault.relabel r), (x.run m).2.relabel r)

variable {r}

lemma follows_pure (a : α) : Follows (σ := σ) r (pure a) (pure a) :=
  fun _ => rfl

lemma follows_fail (fault : Fault) :
    Follows (σ := σ) (α := α) r (Attempt.fail fault) (Attempt.fail (fault.relabel r)) :=
  fun _ => rfl

lemma Follows.bind (h : Follows r x y) (h' : ∀ a, Follows r (f a) (g a)) :
    Follows r (x >>= f) (y >>= g) := by
  intro m
  rw [Attempt.run_bind, Attempt.run_bind, h m]
  obtain ⟨result, m'⟩ := x.run m
  cases result with
  | done a => exact h' a m'
  | failed fault => rfl
  | unfinished => rfl

lemma Follows.thenAlways (h : Follows r x y) {change : Machine σ → Machine σ}
    (hchange : ∀ m, change (m.relabel r) = (change m).relabel r) :
    Follows r (x.thenAlways change) (y.thenAlways change) := by
  intro m
  rw [Attempt.run_thenAlways, Attempt.run_thenAlways, h m]
  obtain ⟨result, m'⟩ := x.run m
  cases result with
  | done a => exact Prod.ext rfl (hchange m')
  | failed fault => exact Prod.ext rfl (hchange m')
  | unfinished => rfl

lemma Follows.inFrame (h : Follows r x y) : Follows r (inFrame x) (inFrame y) := by
  refine Follows.bind (fun m => ?_) fun _ => h.thenAlways fun m => ?_
  · have henter := ScopeTree.relabel_enter r id m.env
    exact Prod.ext rfl (congrArg (fun env => Machine.mk env m.out) henter)
  · have hexit := ScopeTree.relabel_leaveAndDrop r id m.env
    exact congrArg (fun env => Machine.mk env m.out) hexit

/-- The repetitions of a loop follow one another. -/
lemma Follows.iterate {test test' body body' : Running σ Bool} (htest : Follows r test test')
    (hbody : Follows r body body') : ∀ steps : Nat,
    Follows r (Attempt.iterate test body steps) (Attempt.iterate test' body' steps)
  | 0, _ => rfl
  | steps + 1, m => by
    have hrest := Follows.iterate htest hbody steps
    change Attempt.iterate test' body' (steps + 1) (m.relabel r) =
      ((Attempt.iterate test body (steps + 1) m).1.mapFault (Fault.relabel r),
        (Attempt.iterate test body (steps + 1) m).2.relabel r)
    have hm : test' (m.relabel r) = ((test m).1.mapFault (Fault.relabel r), (test m).2.relabel r) :=
      htest m
    rw [Attempt.iterate, Attempt.iterate, hm]
    obtain ⟨result, m'⟩ := test m
    cases result with
    | failed fault => rfl
    | unfinished => rfl
    | done holds =>
      cases holds with
      | false => rfl
      | true =>
        have hm' : body' (m'.relabel r) =
            ((body m').1.mapFault (Fault.relabel r), (body m').2.relabel r) := hbody m'
        simp only [Outcome.mapFault]
        rw [hm']
        obtain ⟨result', m''⟩ := body m'
        cases result' with
        | failed fault => rfl
        | unfinished => rfl
        | done again =>
          cases again with
          | false => rfl
          | true => exact hrest m''

/-! ## Single steps -/

lemma follows_ofExcept (result : Except Fault α) :
    Follows (σ := σ) r (Attempt.ofExcept result)
      (Attempt.ofExcept (result.mapError (Fault.relabel r))) := by
  cases result <;> exact fun _ => rfl

lemma follows_lookup (ident : Ident) :
    Follows (σ := σ) r (lookup ident) (lookup (ident.relabel r)) := by
  intro m
  have hfound : (m.relabel r).env.lookup (ident.relabel r).name = m.env.lookup ident.name :=
    Environment.lookup_relabel r m.env ident.name
  change lookup (ident.relabel r) (m.relabel r) =
    ((lookup ident m).1.mapFault (Fault.relabel r), (lookup ident m).2.relabel r)
  rw [lookup, lookup, hfound]
  cases m.env.lookup ident.name <;> rfl

lemma follows_define (name : Ident) (kind : BindingKind) (value : Value) :
    Follows (σ := σ) r (define name kind value) (define (name.relabel r) kind value) := by
  intro m
  have hinsert := ScopeTree.insert_relabel r id m.env name.name ⟨kind, value⟩
  exact Prod.ext rfl (congrArg (fun env => Machine.mk env m.out) hinsert)

lemma follows_assign (target : Ident) (value : Value) (line : Nat) :
    Follows (σ := σ) r (assign target value line)
      (assign (target.relabel r) value (r.line line)) := by
  intro m
  have hassign := Environment.assign_relabel r m.env target.name value line
  change assign (target.relabel r) value (r.line line) (m.relabel r) =
    ((assign target value line m).1.mapFault (Fault.relabel r),
      (assign target value line m).2.relabel r)
  rw [assign, assign]
  change (match (m.env.relabel r).assign (r.name target.name) value (r.line line) with
    | .ok env => _
    | .error fault => _) = _
  rw [hassign]
  cases m.env.assign target.name value line <;> rfl

/-- What a sink does depends on neither names nor lines. -/
lemma follows_output (operation : σ → Option String × σ) :
    Follows r (output operation) (output operation) := by
  intro m
  change output operation (m.relabel r) =
    ((output operation m).1.mapFault (Fault.relabel r), (output operation m).2.relabel r)
  have hout : (m.relabel r).out = m.out := rfl
  rw [output, output, hout]
  obtain ⟨reason, out⟩ := operation m.out
  cases reason <;> rfl

lemma follows_truth (construct : String) (line : Nat) (value : Value) :
    Follows (σ := σ) r (truth construct line value) (truth construct (r.line line) value) := by
  cases value <;> exact fun _ => rfl

lemma initial_relabel (name : Ident) (ty : Option Ident) :
    initial (name.relabel r) (ty.map (Ident.relabelType r)) =
      (initial name ty).mapError (Fault.relabel r) := by
  cases ty with
  | none => rfl
  | some declared =>
    have hname : (declared.relabelType r).name = declared.name := rfl
    simp only [Option.map_some, initial, hname]
    cases Ty.ofName? declared.name <;> rfl

/-! ## Whole programs -/

variable [Sink σ]

mutual

theorem eval_follows (bound : Nat) : ∀ e : Expr,
    Follows (σ := σ) r (eval bound e) (eval bound (e.relabel r))
  | .literal value => by
    have hvalue : Value.ofLiteral (value.relabel r) = Value.ofLiteral value := by
      cases value <;> rfl
    rw [Expr.relabel, eval, eval, hvalue]
    exact follows_pure _
  | .name ident => by
    rw [Expr.relabel, eval, eval]
    exact follows_lookup ident
  | .unary op operand line => by
    rw [Expr.relabel, eval, eval]
    refine (eval_follows bound operand).bind fun value => ?_
    rw [Value.applyUnary_relabel]
    exact follows_ofExcept _
  | .binary op left right line => by
    rw [Expr.relabel, eval, eval]
    refine (eval_follows bound left).bind fun leftValue =>
      (eval_follows bound right).bind fun rightValue => ?_
    rw [Value.applyBinary_relabel]
    exact follows_ofExcept _
  | .block body line => by
    rw [Expr.relabel, eval, eval]
    exact (evalBody_follows bound line body).inFrame

theorem evalBody_follows (bound line : Nat) : ∀ body : List Stmt,
    Follows (σ := σ) r (evalBody bound line body)
      (evalBody bound (r.line line) (Stmt.relabelAll r body))
  | [] => follows_fail _
  | [last] => by
    rw [Stmt.relabelAll, Stmt.relabelAll]
    cases last with
    | expr value =>
      rw [Stmt.relabel, evalBody, evalBody]
      exact eval_follows bound value
    | _ => exact follows_fail _
  | first :: second :: rest => by
    have hrest := evalBody_follows bound line (second :: rest)
    rw [Stmt.relabelAll] at hrest
    rw [Stmt.relabelAll, Stmt.relabelAll, evalBody_cons_cons, evalBody_cons_cons]
    refine (exec_follows bound first).bind fun flow => ?_
    split
    · exact hrest
    · exact follows_fail _

theorem exec_follows (bound : Nat) : ∀ s : Stmt,
    Follows (σ := σ) r (exec bound s) (exec bound (s.relabel r))
  | .constDef name ty value line => by
    rw [Stmt.relabel, exec, exec]
    exact (eval_follows bound value).bind fun v =>
      (follows_define name .const v).bind fun _ => follows_pure _
  | .varDef name ty value line => by
    rw [Stmt.relabel, exec, exec]
    exact (eval_follows bound value).bind fun v =>
      (follows_define name .var v).bind fun _ => follows_pure _
  | .varDecl name ty line => by
    rw [Stmt.relabel, exec, exec, initial_relabel]
    exact (follows_ofExcept _).bind fun v =>
      (follows_define name .var v).bind fun _ => follows_pure _
  | .assign target value line => by
    rw [Stmt.relabel, exec, exec]
    exact (eval_follows bound value).bind fun v =>
      (follows_assign target v line).bind fun _ => follows_pure _
  | .print value line => by
    rw [Stmt.relabel, exec, exec]
    exact (eval_follows bound value).bind fun v =>
      (follows_output _).bind fun _ => follows_pure _
  | .ifElse test thenBlock elseBlock line => by
    rw [Stmt.relabel, exec, exec]
    refine (eval_follows bound test).bind fun v =>
      (follows_truth "if" line v).bind fun holds => ?_
    split
    · exact (execAll_follows bound thenBlock).inFrame
    · exact (execAll_follows bound elseBlock).inFrame
  | .whileLoop test body line => by
    rw [Stmt.relabel, exec, exec]
    refine Follows.bind (Follows.iterate ?_ ?_ bound) fun _ => follows_pure _
    · exact (eval_follows bound test).bind (follows_truth "while" line)
    · exact (execAll_follows bound body).inFrame.bind fun flow => follows_pure _
  | .breakLoop line => follows_pure _
  | .continueLoop line => follows_pure _
  | .expr value => by
    rw [Stmt.relabel, exec, exec]
    exact (eval_follows bound value).bind fun _ => follows_pure _

theorem execAll_follows (bound : Nat) : ∀ body : List Stmt,
    Follows (σ := σ) r (execAll bound body) (execAll bound (Stmt.relabelAll r body))
  | [] => follows_pure _
  | first :: rest => by
    rw [Stmt.relabelAll, execAll, execAll]
    refine (exec_follows bound first).bind fun flow => ?_
    split
    · exact execAll_follows bound rest
    · exact follows_pure flow

end

theorem run_follows (bound : Nat) (program : Program) :
    Follows (σ := σ) r (run bound program) (run bound (program.relabel r)) := by
  refine Follows.bind (fun m => ?_) fun _ => (execAll_follows bound program.body).bind fun _ =>
    follows_output Sink.flush
  have hroot : Environment.relabel r .root = .root := ScopeTree.relabel_root r id
  exact Prod.ext rfl (congrArg (fun env => Machine.mk env m.out) hroot.symm)

end Machine

/-- A relabelled program writes what the original one writes and ends as the original one ends,
with the fault relabelled if there is one. -/
theorem Program.run_relabel {σ : Type} [Sink σ] (r : Relabelling) (bound : Nat)
    (program : Program) (out : σ) :
    (program.relabel r).run bound out =
      ((program.run bound out).1.mapFault (Fault.relabel r), (program.run bound out).2) := by
  have hfollows := Machine.run_follows (r := r) bound program (⟨.root, out⟩ : Machine σ)
  have hroot : (⟨.root, out⟩ : Machine σ).relabel r = ⟨.root, out⟩ :=
    congrArg (fun env => Machine.mk env out) (ScopeTree.relabel_root r id)
  rw [hroot] at hfollows
  simp only [Program.run, hfollows]
  rfl

end BlockLang
