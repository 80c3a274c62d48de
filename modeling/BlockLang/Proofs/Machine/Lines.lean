import BlockLang.Proofs.Machine.Endings
import BlockLang.Proofs.Machine.Operators
import BlockLang.Proofs.Program.Lines

/-!
# The lines that a run points at

A run takes the line of its fault from the node that it is carrying out, or from a name that the
node uses; only a sink that refuses the output has no line.  Of a program that stands on some lines
a run therefore points at these lines, whether or not the types are right
(`Program.fromRun_of_run`).
-/

namespace BlockLang

/-- A fault that points at one of the lines, or that of a sink. -/
def Fault.FromRun (lines : List Nat) (fault : Fault) : Prop :=
  fault.PointsTo lines ∨ ∃ reason, fault = .outputFailed reason

lemma Fault.OfOperator.fromRun {lines : List Nat} {line : Nat} {fault : Fault}
    (h : fault.OfOperator line) (hline : line ∈ lines) : fault.FromRun lines := by
  refine .inl ⟨line, hline, ?_⟩
  cases h <;> rfl

namespace Machine

open Attempt (upholds_pure upholds_fail upholds_ofExcept)

variable {σ α : Type} {x : Running σ α} {lines : List Nat} {line : Nat}

/-- If the activity fails, it fails with a fault that points at the lines or with that of the
sink. -/
abbrev Blames (lines : List Nat) (x : Running σ α) : Prop :=
  x.Upholds (Fault.FromRun lines) (fun _ => True) fun _ => True

lemma blames_pure (a : α) : Blames (σ := σ) lines (pure a) :=
  upholds_pure trivial

lemma Blames.inFrame (h : Blames lines x) : Blames lines (inFrame x) :=
  fun _ _ => ends_inFrame ((h _ trivial).mono fun _ _ _ => ⟨trivial, trivial⟩)

/-- The fault points at a line of the program. -/
lemma blames_fail {fault : Fault} (hfault : fault.line? = some line) (hline : line ∈ lines) :
    Blames lines (Attempt.fail fault : Running σ α) :=
  upholds_fail (.inl ⟨line, hline, hfault⟩)

/-! ## Single steps -/

lemma blames_lookup {ident : Ident} (hline : ident.line ∈ lines) :
    Blames lines (lookup ident : Running σ Value) := by
  intro m _
  rw [Attempt.Ends, Attempt.run, lookup]
  cases Environment.lookup m.env ident.name with
  | some binding => exact ⟨trivial, trivial⟩
  | none => exact .inl ⟨ident.line, hline, rfl⟩

lemma blames_applyUnary (op : UnaryOp) (v : Value) (hline : line ∈ lines) :
    Blames lines (Attempt.ofExcept (v.applyUnary op line) : Running σ Value) :=
  upholds_ofExcept (fun _ _ => trivial) fun _ h => (Value.ofOperator_applyUnary h).fromRun hline

lemma blames_applyBinary (op : BinOp) (left right : Value) (hline : line ∈ lines) :
    Blames lines (Attempt.ofExcept (left.applyBinary op right line) : Running σ Value) :=
  upholds_ofExcept (fun _ _ => trivial) fun _ h => (Value.ofOperator_applyBinary h).fromRun hline

lemma blames_define (name : Ident) (kind : BindingKind) (value : Value) :
    Blames (σ := σ) lines (define name kind value) :=
  fun _ _ => ⟨trivial, trivial⟩

lemma blames_assign (target : Ident) (value : Value) (hline : line ∈ lines) :
    Blames (σ := σ) lines (assign target value line) := by
  intro m _
  rw [Attempt.Ends, Attempt.run, assign, Environment.assign]
  cases m.env.find? target.name with
  | none => exact .inl ⟨line, hline, rfl⟩
  | some found =>
    obtain ⟨frame, kind, old⟩ := found
    cases kind with
    | var => exact ⟨trivial, trivial⟩
    | const => exact .inl ⟨line, hline, rfl⟩

lemma blames_output (operation : σ → Option String × σ) : Blames lines (output operation) :=
  fun _ _ => (ends_output (fun reason => .inr ⟨reason, rfl⟩) operation).mono
    fun _ _ _ => ⟨trivial, trivial⟩

lemma blames_truth (construct : String) (value : Value) (hline : line ∈ lines) :
    Blames (σ := σ) lines (truth construct line value) := by
  cases value with
  | bool holds => exact blames_pure holds
  | _ => exact blames_fail rfl hline

lemma blames_initial {name : Ident} {ty : Option Ident}
    (hidents : ∀ ident ∈ name :: ty.toList, ident.line ∈ lines) :
    Blames (σ := σ) lines (Attempt.ofExcept (initial name ty)) := by
  refine upholds_ofExcept (fun _ _ => trivial) fun fault h => .inl ?_
  obtain ⟨hname, hty⟩ := List.forall_mem_cons.mp hidents
  cases ty with
  | none =>
    cases h
    exact ⟨name.line, hname, rfl⟩
  | some declared =>
    rw [initial] at h
    split at h
    · cases h
    · cases h
      exact ⟨declared.line, hty declared List.mem_cons_self, rfl⟩

/-! ## Whole programs -/

variable [Sink σ]

mutual

theorem eval_blames (bound : Nat) : ∀ {e : Expr}, e.Everywhere (.onLines lines) →
    Blames (σ := σ) lines (eval bound e)
  | .literal _, _ => by
    rw [eval]
    exact blames_pure _
  | .name _, h => by
    rw [eval]
    exact blames_lookup h
  | .unary op _ _, ⟨hline, h⟩ => by
    rw [eval]
    exact (eval_blames bound h).bind fun v _ => blames_applyUnary op v hline
  | .binary op _ _ _, ⟨hline, hleft, hright⟩ => by
    rw [eval]
    exact (eval_blames bound hleft).bind fun left _ => (eval_blames bound hright).bind
      fun right _ => blames_applyBinary op left right hline
  | .block _ _, ⟨hline, hbody⟩ => by
    rw [eval]
    exact (evalBody_blames bound hline hbody).inFrame

theorem evalBody_blames (bound : Nat) {line : Nat} (hline : line ∈ lines) :
    ∀ {body : List Stmt}, Stmt.AllEverywhere (.onLines lines) body →
      Blames (σ := σ) lines (evalBody bound line body)
  | [], _ => by
    rw [evalBody]
    exact blames_fail rfl hline
  | [last], ⟨h, _⟩ => by
    cases last with
    | expr value =>
      rw [evalBody]
      exact eval_blames bound h.2
    | _ =>
      rw [evalBody]
      · exact blames_fail rfl hline
      · exact nofun
  | _ :: _ :: _, ⟨hfirst, hrest⟩ => by
    rw [evalBody_cons_cons]
    refine (exec_blames bound hfirst).bind fun flow _ => ?_
    split
    · exact evalBody_blames bound hline hrest
    · exact blames_fail rfl hline

theorem exec_blames (bound : Nat) : ∀ {s : Stmt}, s.Everywhere (.onLines lines) →
    Blames (σ := σ) lines (exec bound s)
  | .constDef name _ _ _, ⟨_, h⟩ | .varDef name _ _ _, ⟨_, h⟩ => by
    rw [exec]
    exact (eval_blames bound h).bind fun v _ =>
      (blames_define name _ v).bind fun _ _ => blames_pure _
  | .varDecl name _ _, ⟨_, hidents⟩ => by
    rw [exec]
    exact (blames_initial hidents).bind fun v _ =>
      (blames_define name .var v).bind fun _ _ => blames_pure _
  | .assign target _ _, ⟨⟨hline, _⟩, h⟩ => by
    rw [exec]
    exact (eval_blames bound h).bind fun v _ =>
      (blames_assign target v hline).bind fun _ _ => blames_pure _
  | .print _ _, ⟨_, h⟩ => by
    rw [exec]
    exact (eval_blames bound h).bind fun v _ =>
      (blames_output (Sink.write v.printed)).bind fun _ _ => blames_pure _
  | .ifElse _ _ _ _, ⟨⟨hline, _⟩, htest, hthen, helse⟩ => by
    rw [exec]
    refine (eval_blames bound htest).bind fun v _ =>
      (blames_truth "if" v hline).bind fun holds _ => ?_
    split
    · exact (execAll_blames bound hthen).inFrame
    · exact (execAll_blames bound helse).inFrame
  | .whileLoop _ _ _, ⟨⟨hline, _⟩, htest, hbody⟩ => by
    rw [exec]
    have test := (eval_blames bound htest).bind fun v _ => blames_truth "while" v hline
    have body := (execAll_blames bound hbody).inFrame.bind fun flow _ =>
      blames_pure (decide (flow ≠ .broken))
    exact (test.iterate body bound).bind fun _ _ => blames_pure _
  | .breakLoop _, _ | .continueLoop _, _ => by
    rw [exec]
    exact blames_pure _
  | .expr _, ⟨_, h⟩ => by
    rw [exec]
    exact (eval_blames bound h).bind fun _ _ => blames_pure _

theorem execAll_blames (bound : Nat) : ∀ {body : List Stmt},
    Stmt.AllEverywhere (.onLines lines) body → Blames (σ := σ) lines (execAll bound body)
  | [], _ => by
    rw [execAll]
    exact blames_pure _
  | _ :: _, ⟨hfirst, hrest⟩ => by
    rw [execAll]
    refine (exec_blames bound hfirst).bind fun flow _ => ?_
    split
    · exact execAll_blames bound hrest
    · exact blames_pure flow

end

theorem run_blames (bound : Nat) {program : Program}
    (hlines : program.Everywhere (.onLines lines)) : Blames (σ := σ) lines (run bound program) := by
  have root : Blames (σ := σ) lines (Attempt.modify fun m => ⟨.root, m.out⟩) :=
    fun _ _ => ⟨trivial, trivial⟩
  exact root.bind fun _ _ => (execAll_blames bound hlines).bind fun _ _ =>
    blames_output Sink.flush

end Machine

/-- A run that fails points at a line of the program, unless it is the sink that has failed. -/
theorem Program.fromRun_of_run {σ : Type} [Sink σ] {lines : List Nat} {program : Program}
    (hlines : program.Everywhere (.onLines lines)) (bound : Nat) {out : σ} {fault : Fault}
    (h : (program.run bound out).1 = .failed fault) : fault.FromRun lines :=
  (Machine.run_blames bound hlines ⟨.root, out⟩ trivial).of_failed (Prod.ext h rfl)

end BlockLang
