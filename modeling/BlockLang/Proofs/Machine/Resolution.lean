import BlockLang.Proofs.Machine.Endings
import BlockLang.Proofs.Machine.Operators
import BlockLang.Proofs.Typing.Closed

/-!
# Every name of a closed program is bound

A closed program uses no name in front of its definition, so where a name is looked up in a run,
some frame binds it.  `Environment.Binds known env` says that all the names `known` are found; it is
kept by all that keeps the frames, in the sense of `Environment.Keeps`, because a name that is
defined or assigned again stays bound.  By recursion over the tree no run of a closed piece ends
with the fault of a name without a binding (`Machine.eval_resolves` and its companions).
-/

namespace BlockLang

/-- The fault is not that of a name without a binding. -/
def Fault.Resolved : Fault → Prop
  | .undefinedVariable .. => False
  | _ => True

/-- No operator is without a binding. -/
lemma Fault.OfOperator.resolved {fault : Fault} {line : Nat} (h : fault.OfOperator line) :
    fault.Resolved := by
  cases h <;> trivial

namespace Environment

variable {env env' : Environment} {known free : List String}

/-! ## Names that are found -/

/-- A name that is found is found also when the frames have been kept. -/
lemma Keeps.findFrom_isSome (h : Keeps free env env') {name : String} {steps : Nat}
    {start : Option Nat} (found : (env.findFrom name steps start).isSome = true) :
    (env'.findFrom name steps start).isSome = true := by
  induction steps generalizing start with
  | zero => cases found
  | succ steps ih =>
    cases start with
    | none => cases found
    | some id =>
      have hparent := h.parent_eq id
      have hbound := h.bound id name
      rw [bound?, bound?] at hbound
      rw [ScopeTree.findFrom] at found ⊢
      cases hframe : env.scopes[id]? with
      | none => simp [hframe] at found
      | some frame =>
        rw [hframe, Option.map_some, Option.map_eq_some_iff] at hparent
        obtain ⟨frame', hframe', hsame⟩ := hparent
        simp only [hframe, hframe', Option.bind_some] at found hbound ⊢
        cases hname' : frame'.names.get? name with
        | some binding => rfl
        | none =>
          cases hname : frame.names.get? name with
          | some binding =>
            rw [hname, hname'] at hbound
            exact absurd (hbound rfl) (by simp)
          | none =>
            simp only [hname] at found
            rw [hsame]
            exact ih found

/-- A name that is found is found also from a new frame. -/
lemma findFrom_enter_isSome {name : String} {steps : Nat} {start : Option Nat}
    (found : (env.findFrom name steps start).isSome = true) :
    (env.enter.findFrom name steps start).isSome = true := by
  induction steps generalizing start with
  | zero => cases found
  | succ steps ih =>
    cases start with
    | none => cases found
    | some id =>
      rw [ScopeTree.findFrom] at found ⊢
      cases hframe : env.scopes[id]? with
      | none => simp [hframe] at found
      | some frame =>
        have hlt := (Array.getElem?_eq_some_iff.mp hframe).1
        have hframe' : env.enter.scopes[id]? = some frame := by
          rw [ScopeTree.enter, Array.getElem?_push_lt hlt, ← Array.getElem?_eq_getElem hlt, hframe]
        simp only [hframe, hframe'] at found ⊢
        cases hname : frame.names.get? name with
        | some binding => rfl
        | none =>
          simp only [hname] at found
          exact ih found

/-- A name that the innermost frame binds is found there. -/
lemma isSome_find?_of_bound? {name : String} {binding : Binding}
    (h : env.bound? env.current name = some binding) : (env.find? name).isSome = true := by
  obtain ⟨frame, hframe, hname⟩ := Option.bind_eq_some_iff.mp h
  have hlt := (Array.getElem?_eq_some_iff.mp hframe).1
  obtain ⟨count, hcount⟩ := Nat.exists_eq_add_of_lt hlt
  rw [ScopeTree.find?, hcount, ScopeTree.findFrom, hframe]
  simp only [hname]
  rfl

/-- Each of the names is found, and there is an innermost frame to bind more of them in. -/
structure Binds (known : List String) (env : Environment) : Prop where
  exists_frame : env.current < env.depth
  isSome_find? : ∀ name ∈ known, (env.find? name).isSome = true

lemma binds_root : Binds [] .root :=
  ⟨Nat.zero_lt_one, fun _ h => absurd h List.not_mem_nil⟩

namespace Binds

lemma keeps (h : Binds known env) (kept : Keeps free env env') : Binds known env' where
  exists_frame := by
    rw [kept.current_eq, kept.depth_eq]
    exact h.exists_frame
  isSome_find? name hname := by
    have hsize : env'.scopes.size = env.scopes.size := kept.depth_eq
    rw [ScopeTree.find?, hsize, kept.current_eq]
    exact kept.findFrom_isSome (h.isSome_find? name hname)

lemma enter (h : Binds known env) : Binds known env.enter where
  exists_frame := by
    show env.scopes.size < (env.scopes.push _).size
    rw [Array.size_push]
    exact Nat.lt_succ_self _
  isSome_find? name hname := by
    have hsize : env.enter.scopes.size = env.scopes.size + 1 := Array.size_push _
    have hcurrent : env.enter.current = env.scopes.size := rfl
    have hframe : env.enter.scopes[env.scopes.size]? = some ⟨some env.current, .empty⟩ :=
      Array.getElem?_push_size
    rw [ScopeTree.find?, hsize, hcurrent, ScopeTree.findFrom, hframe]
    exact findFrom_enter_isSome (h.isSome_find? name hname)

/-- A definition adds its name to those that are found. -/
lemma define (h : Binds known env) (name : String) (kind : BindingKind) (value : Value) :
    Binds (name :: known) (Environment.define env name kind value) := by
  have kept := h.keeps (keeps_define env name kind value)
  refine ⟨kept.exists_frame, fun other hother => ?_⟩
  rcases List.mem_cons.mp hother with rfl | hknown
  · exact isSome_find?_of_bound? (bound?_define h.exists_frame other kind value)
  · exact kept.isSome_find? other hknown

lemma lookup (h : Binds known env) {name : String} (hname : name ∈ known) :
    ∃ binding, Environment.lookup env name = some binding := by
  obtain ⟨found, hfound⟩ := Option.isSome_iff_exists.mp (h.isSome_find? name hname)
  exact ⟨found.2, by rw [Environment.lookup, ScopeTree.get?, hfound]; rfl⟩

end Binds

end Environment

namespace Machine

open Environment
open Attempt (Ends ends_pure ends_modify ends_bind ends_iterate)

/-! ## Runs of closed pieces -/

variable {σ α : Type} {x : Running σ α} {m : Machine σ} {known free : List String}

/-- What keeps the frames keeps the names that are found. -/
lemma ends_binding {allowed : Fault → Prop} {P : α → Prop} (hm : Binds known m.env)
    (kept : Keeping free x) (h : Ends allowed x m fun a _ => P a) :
    Ends allowed x m fun a m' => P a ∧ Binds known m'.env := by
  obtain ⟨outcome, m', hrun⟩ : ∃ outcome m', x.run m = (outcome, m') := ⟨_, _, rfl⟩
  have hkept := kept m
  rw [hrun] at hkept
  rw [Ends, hrun] at h ⊢
  cases outcome with
  | done a => exact ⟨h, hm.keeps (hkept rfl)⟩
  | failed fault => exact h
  | unfinished => trivial

lemma resolves_ofExcept {result : Except Fault α}
    (h : ∀ fault, result = .error fault → fault.Resolved) :
    Ends Fault.Resolved (Attempt.ofExcept result) m fun _ m' => m' = m := by
  cases result with
  | ok a => rfl
  | error fault => exact h fault rfl

lemma resolves_lookup {ident : Ident} (hm : Binds known m.env) (hname : ident.name ∈ known) :
    Ends Fault.Resolved (lookup ident) m fun _ m' => m' = m := by
  obtain ⟨binding, hbinding⟩ := hm.lookup hname
  rw [Ends, Attempt.run, lookup, hbinding]

lemma resolves_assign {target : Ident} {value : Value} {line : Nat} (hm : Binds known m.env)
    (hname : target.name ∈ known) :
    Ends Fault.Resolved (assign target value line) m fun _ _ => True := by
  obtain ⟨⟨owner, kind, old⟩, hfound⟩ :=
    Option.isSome_iff_exists.mp (hm.isSome_find? target.name hname)
  rw [Ends, Attempt.run, assign, Environment.assign, hfound]
  cases kind <;> trivial

lemma resolves_initial {name : Ident} {ty : Option Ident} :
    Ends Fault.Resolved (Attempt.ofExcept (initial name ty)) m fun _ m' => m' = m := by
  refine resolves_ofExcept fun fault h => ?_
  cases ty with
  | none => cases h; trivial
  | some declared =>
    rw [initial] at h
    split at h <;> cases h
    trivial

lemma resolves_truth {construct : String} {line : Nat} {value : Value} :
    Ends Fault.Resolved (truth construct line value) m fun _ m' => m' = m := by
  cases value <;> trivial

variable [Sink σ]

mutual

theorem eval_resolves (bound : Nat) : ∀ {e : Expr} {known : List String} {m : Machine σ},
    e.Closed known → Binds known m.env →
    Ends Fault.Resolved (eval bound e) m fun _ m' => True ∧ Binds known m'.env
  | .literal value, _, _, _, hm => by
    rw [eval, ends_pure]
    exact ⟨trivial, hm⟩
  | .name ident, _, _, closed, hm => by
    rw [eval]
    refine (resolves_lookup hm closed).mono ?_
    rintro v _ rfl
    exact ⟨trivial, hm⟩
  | .unary op operand line, _, _, closed, hm => by
    rw [eval, ends_bind]
    refine (eval_resolves bound (e := operand) closed hm).mono fun v m₁ ⟨_, hm₁⟩ => ?_
    refine (resolves_ofExcept fun _ h => (Value.ofOperator_applyUnary h).resolved).mono ?_
    rintro _ _ rfl
    exact ⟨trivial, hm₁⟩
  | .binary op _ _ line, _, _, closed, hm => by
    simp only [eval, ends_bind]
    refine (eval_resolves bound closed.1 hm).mono fun v m₁ ⟨_, hm₁⟩ => ?_
    refine (eval_resolves bound closed.2 hm₁).mono fun v' m₂ ⟨_, hm₂⟩ => ?_
    refine (resolves_ofExcept fun _ h => (Value.ofOperator_applyBinary h).resolved).mono ?_
    rintro _ _ rfl
    exact ⟨trivial, hm₂⟩
  | .block body line, _, _, closed, hm => by
    rw [eval]
    exact ends_binding hm (evalBody_keeping bound line body).inFrame
      (ends_inFrame (evalBody_resolves bound line closed hm.enter))

theorem evalBody_resolves (bound line : Nat) : ∀ {body : List Stmt} {known : List String}
    {m : Machine σ}, Stmt.AllClosed known false body → Binds known m.env →
    Ends Fault.Resolved (evalBody bound line body) m fun _ _ => True
  | [], _, _, _, _ => by
    rw [evalBody]
    trivial
  | [last], _, _, closed, hm => by
    cases last with
    | expr value =>
      rw [evalBody]
      exact (eval_resolves bound closed.1 hm).mono fun _ _ _ => trivial
    | _ =>
      rw [evalBody]
      · trivial
      · exact nofun
  | first :: _ :: _, _, _, closed, hm => by
    rw [evalBody_cons_cons, ends_bind]
    refine (exec_resolves bound closed.1 hm).mono fun flow m₁ ⟨_, hm₁⟩ => ?_
    split
    · exact evalBody_resolves bound line closed.2 hm₁
    · trivial

theorem exec_resolves (bound : Nat) : ∀ {s : Stmt} {known : List String} {inLoop : Bool}
    {m : Machine σ}, s.Closed known inLoop → Binds known m.env →
    Ends Fault.Resolved (exec bound s) m fun flow m' =>
      (flow ≠ .normal → inLoop = true) ∧ Binds (s.defined ++ known) m'.env
  | .constDef name _ _ _, _, _, _, closed, hm | .varDef name _ _ _, _, _, _, closed, hm => by
    simp only [exec, ends_bind, ends_pure]
    refine (eval_resolves bound closed hm).mono fun v m₁ ⟨_, hm₁⟩ => ?_
    exact ends_modify.mpr ⟨absurd rfl, hm₁.define name.name _ v⟩
  | .varDecl name _ _, _, _, _, _, hm => by
    simp only [exec, ends_bind, ends_pure]
    refine resolves_initial.mono ?_
    rintro v _ rfl
    exact ends_modify.mpr ⟨absurd rfl, hm.define name.name .var v⟩
  | .assign target _ line, _, _, _, closed, hm => by
    simp only [exec, ends_bind, ends_pure]
    refine (eval_resolves bound closed.1 hm).mono fun v m₁ ⟨_, hm₁⟩ => ?_
    refine (ends_binding hm₁ (keeping_assign target v line)
      (resolves_assign hm₁ closed.2)).mono ?_
    exact fun _ _ ⟨_, hm₂⟩ => ⟨absurd rfl, hm₂⟩
  | .print _ _, _, _, _, closed, hm => by
    simp only [exec, ends_bind, ends_pure]
    refine (eval_resolves bound closed hm).mono fun v m₁ ⟨_, hm₁⟩ => ?_
    refine (ends_output (fun _ => trivial) (Sink.write v.printed)).mono fun _ m₂ hsame => ?_
    exact ⟨absurd rfl, hsame ▸ hm₁⟩
  | .ifElse _ thenBlock elseBlock _, _, _, _, ⟨closed, thenClosed, elseClosed⟩, hm => by
    simp only [exec, ends_bind]
    refine (eval_resolves bound closed hm).mono fun v m₁ ⟨_, hm₁⟩ => ?_
    refine resolves_truth.mono ?_
    rintro holds _ rfl
    cases holds with
    | true =>
      exact ends_binding hm₁ (execAll_keeping bound thenBlock).inFrame
        (ends_inFrame (execAll_resolves bound thenClosed hm₁.enter))
    | false =>
      exact ends_binding hm₁ (execAll_keeping bound elseBlock).inFrame
        (ends_inFrame (execAll_resolves bound elseClosed hm₁.enter))
  | .whileLoop _ body line, known, _, _, ⟨closed, bodyClosed⟩, hm => by
    rw [exec, ends_bind]
    -- The names that are found in front of a repetition are found behind it.
    refine (ends_iterate (fun m => Binds known m.env) ?_ ?_ bound hm).mono
      fun _ m' (hm' : Binds known m'.env) => ends_pure.mpr ⟨absurd rfl, hm'⟩
    · intro m hm
      rw [ends_bind]
      refine (eval_resolves bound closed hm).mono fun v m₁ ⟨_, hm₁⟩ => ?_
      refine resolves_truth.mono ?_
      rintro _ _ rfl
      exact hm₁
    · intro m hm
      simp only [ends_bind, ends_pure]
      exact (ends_binding hm (execAll_keeping bound body).inFrame
        (ends_inFrame (execAll_resolves bound bodyClosed hm.enter))).mono fun _ _ h => h.2
  | .breakLoop _, _, _, _, closed, hm | .continueLoop _, _, _, _, closed, hm => by
    rw [exec, ends_pure]
    exact ⟨fun _ => closed, hm⟩
  | .expr _, _, _, _, closed, hm => by
    simp only [exec, ends_bind, ends_pure]
    exact (eval_resolves bound closed hm).mono fun _ _ ⟨_, hm'⟩ => ⟨absurd rfl, hm'⟩

theorem execAll_resolves (bound : Nat) : ∀ {body : List Stmt} {known : List String}
    {inLoop : Bool} {m : Machine σ}, Stmt.AllClosed known inLoop body → Binds known m.env →
    Ends Fault.Resolved (execAll bound body) m fun flow _ => flow ≠ .normal → inLoop = true
  | [], _, _, _, _, _ => by
    rw [execAll, ends_pure]
    exact absurd rfl
  | _ :: _, _, _, _, closed, hm => by
    rw [execAll, ends_bind]
    refine (exec_resolves bound closed.1 hm).mono fun flow m₁ ⟨hflow, hm₁⟩ => ?_
    split
    · exact execAll_resolves bound closed.2 hm₁
    · exact ends_pure.mpr hflow

end

end Machine

end BlockLang
