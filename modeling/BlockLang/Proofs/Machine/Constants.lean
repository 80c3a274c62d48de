import BlockLang.Proofs.Grammar.Spelling
import BlockLang.Proofs.Machine.Frames
import BlockLang.Proofs.Machine.History
import BlockLang.Proofs.Machine.TypeSafety

/-!
# Constants

Binding a name replaces any binding that the innermost frame has of it, that of a constant
included.  Nothing in the machine keeps a constant from being overwritten in this way; it is the
typing rules that do, because the frames of a run bind the names that its context declares.

`Machine.Orderly m events` says of events that happen from `m` on that each name that is bound is
new in its frame, and that a constant is bound to the literal of its definition as soon as the
definition begins.  The events of a well-typed program are orderly (`Recorded.execAll_orderly`), by
recursion over the program.  Along orderly events a constant stays what it is until its frame is
gone: no event changes it (`Machine.Orderly.keeps_const`), and so no number of events does
(`Machine.Orderly.keeps_const_along`).
-/

namespace BlockLang

/-- The innermost frame exists and does not bind the name. -/
structure Environment.Fresh (env : Environment) (name : String) : Prop where
  exists_frame : env.current < env.depth
  unbound : env.bound? env.current name = none

/-- The event binds no name and does not begin the definition of a constant. -/
def Event.BindsNothing : Event → Prop
  | .define .. | .begins (.constDef ..) => False
  | _ => True

namespace Machine

open Environment

variable {σ : Type} [Sink σ] {m : Machine σ} {events events' : List Event}

/-! ## Orderly events -/

/-- From `m` on, each name that is bound is new in its frame, and the definition of a constant
begins with the constant being bound to the literal that is written there. -/
inductive Orderly : Machine σ → List Event → Prop
  | nil {m : Machine σ} : Orderly m []
  | define {m : Machine σ} {name : String} {kind : BindingKind} {value : Value}
      {rest : List Event} (fresh : m.env.Fresh name)
      (behind : Orderly (m.after (.define name kind value)) rest) :
      Orderly m (.define name kind value :: rest)
  | constDef {m : Machine σ} {name : Ident} {ty : Option Ident} {literal : Literal} {line : Nat}
      {rest : List Event} (fresh : m.env.Fresh name.name)
      (behind : Orderly (m.after (.define name.name .const (.ofLiteral literal))) rest) :
      Orderly m (.begins (.constDef name ty (.literal literal) line) ::
        .define name.name .const (.ofLiteral literal) :: rest)
  | other {m : Machine σ} {e : Event} {rest : List Event} (harmless : e.BindsNothing)
      (behind : Orderly (m.after e) rest) : Orderly m (e :: rest)

namespace Orderly

lemma append (h : Orderly m events) (h' : Orderly (replay events m) events') :
    Orderly m (events ++ events') := by
  induction h with
  | nil => exact h'
  | define fresh _ ih => exact .define fresh (ih h')
  | constDef fresh _ ih => exact .constDef fresh (ih h')
  | other harmless _ ih => exact .other harmless (ih h')

lemma tail {e : Event} (h : Orderly m (e :: events)) : Orderly (m.after e) events := by
  cases h with
  | define _ behind => exact behind
  | constDef fresh behind => exact .define fresh behind
  | other _ behind => exact behind

/-- What follows on some of the events is orderly from the machine behind them. -/
lemma behind {past later : List Event} (h : Orderly m (past ++ later)) :
    Orderly (replay past m) later := by
  induction past generalizing m with
  | nil => exact h
  | cons e past ih => exact ih h.tail

/-- The definition of a constant binds it at once to the literal that is written there. -/
lemma of_begins {name : Ident} {ty : Option Ident} {value : Expr} {line : Nat}
    (h : Orderly m (.begins (.constDef name ty value line) :: events)) :
    ∃ literal rest, value = .literal literal ∧
      events = .define name.name .const (.ofLiteral literal) :: rest ∧
      m.env.Fresh name.name ∧
      Orderly (m.after (.define name.name .const (.ofLiteral literal))) rest := by
  cases h with
  | constDef fresh behind => exact ⟨_, _, rfl, rfl, fresh, behind⟩
  | other harmless _ => exact harmless.elim

/-! ## A constant in a frame that stays -/

variable {id : Nat} {name : String} {value : Value}

/-- No single event changes a constant in a frame that is there behind it. -/
lemma keeps_const {e : Event} (h : Orderly m (e :: events))
    (hconst : m.env.bound? id name = some ⟨.const, value⟩) (live : id < (m.after e).env.depth) :
    (m.after e).env.bound? id name = some ⟨.const, value⟩ := by
  cases e with
  | begins s => exact hconst
  | write text => exact hconst
  | flush => exact hconst
  | enter =>
    have hid : id < m.env.scopes.size := by
      by_contra hout
      rw [bound?, Array.getElem?_eq_none (Nat.le_of_not_lt hout)] at hconst
      cases hconst
    show (m.env.scopes.push _)[id]?.bind _ = _
    rw [Array.getElem?_push_lt hid, ← Array.getElem?_eq_getElem hid]
    exact hconst
  | leave =>
    show bound? (m.env.leaveAndDrop) id name = _
    have hlive : id < (m.env.leaveAndDrop).scopes.size := live
    rw [ScopeTree.leaveAndDrop] at hlive ⊢
    cases hparent : m.env.parent? with
    | none => exact hconst
    | some parent =>
      rw [hparent] at hlive
      show m.env.scopes.pop[id]?.bind _ = _
      rw [Array.getElem?_pop, if_pos]
      · exact hconst
      · simpa only [Array.size_pop] using hlive
  | define other kind new =>
    have fresh : m.env.Fresh other := by
      cases h with
      | define fresh _ => exact fresh
      | other harmless _ => exact harmless.elim
    show bound? (m.env.insertAt m.env.current other ⟨kind, new⟩) id name = _
    rw [bound?_insertAt, if_neg]
    · exact hconst
    · -- The constant would be what the name is not bound to.
      rintro ⟨rfl, rfl, -⟩
      rw [fresh.unbound] at hconst
      cases hconst
  | assign target new line =>
    show bound? (m.after (.assign target new line)).env id name = _
    rw [Machine.after]
    cases hassign : Environment.assign m.env target new line with
    | error fault => exact hconst
    | ok env =>
      have hpersists := (keeps_assign hassign).persists id name fun _ => List.not_mem_nil
      rw [hconst] at hpersists
      cases hbound : env.bound? id name with
      | none => rw [hbound] at hpersists; cases hpersists
      | some binding =>
        rw [hbound] at hpersists
        cases hpersists
        rfl

end Orderly

/-- The frame with a given number is there all along. -/
def Live (id : Nat) : Machine σ → List Event → Prop
  | m, [] => id < m.env.depth
  | m, e :: rest => id < m.env.depth ∧ Live id (m.after e) rest

lemma Live.lt_depth {id : Nat} (h : Live id m events) : id < m.env.depth := by
  cases events with
  | nil => exact h
  | cons e rest => exact h.1

/-- As long as its frame is there, a constant keeps its value. -/
lemma Orderly.keeps_const_along {between later : List Event} {id : Nat} {name : String}
    {value : Value} (h : Orderly m (between ++ later))
    (hconst : m.env.bound? id name = some ⟨.const, value⟩) (live : Live id m between) :
    (replay between m).env.bound? id name = some ⟨.const, value⟩ := by
  induction between generalizing m with
  | nil => exact hconst
  | cons e between ih => exact ih h.tail (h.keeps_const hconst live.2.lt_depth) live.2

end Machine

/-! ## Typed frames -/

/-- A name that the context declares anew is new in the innermost frame. -/
lemma Context.Types.fresh {Γ Δ : Context} {env : Environment} (h : Γ.Types env) {d : Declaration}
    (hd : Γ.Declares d Δ) : env.Fresh d.name := by
  obtain ⟨layers, hstacked, hdescribes⟩ := h
  obtain ⟨unknown⟩ := hd
  obtain _ | ⟨hscope, _⟩ := hdescribes
  refine ⟨hstacked.hasLayers.lt_size, ?_⟩
  have hnone := (hscope.get?_eq_none_iff d.name).mpr unknown
  rw [← hstacked.hasLayers.here_eq, ScopeTree.here] at hnone
  rw [Environment.bound?]
  cases hframe : env.scopes[env.current]? with
  | none => rfl
  | some frame =>
    rw [hframe] at hnone
    exact hnone

/-! ## The events of well-typed programs -/

namespace Recorded

open Machine

variable {σ α β : Type} [Sink σ] {x : Recorded σ α} {f : α → Recorded σ β} {m : Machine σ}

/-- What happens from `m` on in the course of an activity is orderly. -/
def Orderly (x : Recorded σ α) (m : Machine σ) : Prop :=
  Machine.Orderly m (x.events m)

lemma orderly_quiet (x : Running σ α) (m : Machine σ) : Orderly (quiet x) m :=
  .nil

lemma orderly_single {x : Running σ α} {e : Event} (harmless : e.BindsNothing) :
    Orderly (single x e) m :=
  .other harmless .nil

/-- What happens behind an activity begins with the machine that the activity leaves behind. -/
lemma orderly_bind {Post : α → Machine σ → Prop} (hx : Orderly x m) (hreplays : Replays x)
    (hyields : Yields x.activity m Post) (hf : ∀ a m', Post a m' → Orderly (f a) m') :
    Orderly (x >>= f) m := by
  obtain ⟨outcome, m', hrun⟩ : ∃ outcome m', x.activity.run m = (outcome, m') := ⟨_, _, rfl⟩
  rw [Orderly]
  by_cases hdone : ∃ a, outcome = .done a
  · obtain ⟨a, rfl⟩ := hdone
    rw [(bind_of_done hrun).2]
    refine hx.append ?_
    rw [hreplays, hrun]
    exact hf a m' (hyields.of_done hrun)
  · rw [(bind_of_not_done hrun hdone).2]
    exact hx

/-- Nothing happens when only a value is given. -/
lemma orderly_map {g : α → β} (hx : Orderly x m) : Orderly (x >>= fun a => pure (g a)) m := by
  show Machine.Orderly m (x.events m ++ eventsBehind (x.activity.run m) fun a => pure (g a))
  rcases x.activity.run m with ⟨_ | _ | _, m'⟩ <;> exact hx.append .nil

lemma orderly_inFrame (hx : Orderly x ⟨m.env.enter, m.out⟩) : Orderly (inFrame x) m := by
  obtain ⟨outcome, m', hrun⟩ : ∃ outcome m',
    x.activity.run ⟨m.env.enter, m.out⟩ = (outcome, m') := ⟨_, _, rfl⟩
  rw [Orderly, (inFrame_of_run hrun).2]
  refine .other trivial (hx.append ?_)
  cases outcome.isFinished with
  | true => exact .other trivial .nil
  | false => exact .nil

/-- What the test and the body of a loop keep is there before each repetition. -/
lemma orderly_iterate {test body : Recorded σ Bool} (Inv : Machine σ → Prop)
    (testReplays : Replays test) (bodyReplays : Replays body)
    (htest : ∀ m, Inv m → Orderly test m ∧ Yields test.activity m fun _ m' => Inv m')
    (hbody : ∀ m, Inv m → Orderly body m ∧ Yields body.activity m fun _ m' => Inv m')
    (steps : Nat) (hm : Inv m) : Orderly (iterate test body steps) m := by
  induction steps generalizing m with
  | zero => exact .nil
  | succ steps ih =>
    obtain ⟨orderlyTest, behindTest⟩ := htest m hm
    refine orderly_bind orderlyTest testReplays behindTest fun holds m₁ hm₁ => ?_
    cases holds with
    | false => exact .nil
    | true =>
      obtain ⟨orderlyBody, behindBody⟩ := hbody m₁ hm₁
      refine orderly_bind orderlyBody bodyReplays behindBody fun again m₂ hm₂ => ?_
      cases again with
      | false => exact .nil
      | true => exact ih hm₂

variable {bound : Nat} {Γ Δ : Context}

/-- Behind an expression there is a value of its type. -/
lemma orderly_behind_eval {e : Expr} {ty : Ty} {f : Value → Recorded σ β} (typed : HasType Γ e ty)
    (hm : Γ.Types m.env) (he : Orderly (eval bound e) m)
    (hf : ∀ v m', v.ty = ty ∧ Γ.Types m'.env → Orderly (f v) m') :
    Orderly (eval bound e >>= f) m := by
  have hyields := eval_yields bound typed hm
  rw [← activity_eval] at hyields
  exact orderly_bind he (compositional_replays.eval bound e) hyields hf

/-- Behind a statement there are the frames that it declares. -/
lemma orderly_behind_exec {s : Stmt} {inLoop : Bool} {f : Flow → Recorded σ β}
    (admitted : Admits Γ inLoop s Δ) (hm : Γ.Types m.env)
    (hs : Machine.Orderly m (.begins s :: (exec bound s).events m))
    (hf : ∀ flow m', (flow ≠ .normal → inLoop = true) ∧ Δ.Types m'.env → Orderly (f flow) m') :
    Orderly (do begins s; let flow ← exec bound s; f flow) m := by
  have hyields := exec_yields bound admitted hm
  rw [← activity_exec] at hyields
  have hboth : Replays (do begins s; exec bound s : Recorded σ Flow) :=
    (compositional_replays.begins s).bind fun _ => compositional_replays.exec bound s
  have hfirst : Orderly (do begins s; exec bound s) m := hs
  exact orderly_bind (x := do begins s; exec bound s) hfirst hboth hyields hf

mutual

theorem eval_orderly (bound : Nat) : ∀ {e : Expr} {Γ : Context} {ty : Ty} {m : Machine σ},
    HasType Γ e ty → e.Everywhere .spelled → Γ.Types m.env → Orderly (eval bound e) m
  | .literal value, _, _, m, _, _, _ => by
    rw [eval]
    exact orderly_quiet _ m
  | .name ident, _, _, m, _, _, _ => by
    rw [eval]
    exact orderly_quiet _ m
  | .unary _ _ _, _, _, _, .unary typed _, spelled, hm => by
    rw [eval]
    refine orderly_behind_eval typed hm (eval_orderly bound typed spelled.2 hm) fun v m' _ => ?_
    exact orderly_quiet _ m'
  | .binary _ _ _ _, _, _, _, .binary leftTyped rightTyped _, spelled, hm => by
    rw [eval]
    refine orderly_behind_eval leftTyped hm (eval_orderly bound leftTyped spelled.2.1 hm)
      fun left m₁ ⟨_, hm₁⟩ => ?_
    refine orderly_behind_eval rightTyped hm₁ (eval_orderly bound rightTyped spelled.2.2 hm₁)
      fun right m₂ _ => ?_
    exact orderly_quiet _ m₂
  | .block _ line, _, _, _, .block typed, spelled, hm => by
    rw [eval]
    exact orderly_inFrame (evalBody_orderly bound line typed spelled.2 hm.enter)

theorem evalBody_orderly (bound line : Nat) : ∀ {body : List Stmt} {Γ : Context} {ty : Ty}
    {m : Machine σ}, HasBodyType Γ body ty → Stmt.AllEverywhere .spelled body →
    Γ.Types m.env → Orderly (evalBody bound line body) m
  | [.expr _], _, _, _, .last typed, spelled, hm => by
    rw [evalBody]
    exact .other trivial (eval_orderly bound typed spelled.1.2 hm)
  | first :: _ :: _, _, _, m, .behind admitted typed, spelled, hm => by
    rw [evalBody]
    · have hfirst := exec_orderly bound admitted spelled.1 hm
      refine orderly_behind_exec admitted hm hfirst fun flow m₁ ⟨_, hm₁⟩ => ?_
      split
      · exact evalBody_orderly bound line typed spelled.2 hm₁
      · exact orderly_quiet _ m₁
    · exact nofun

/-- A statement, together with its beginning. -/
theorem exec_orderly (bound : Nat) : ∀ {s : Stmt} {Γ Δ : Context} {inLoop : Bool}
    {m : Machine σ}, Admits Γ inLoop s Δ → s.Everywhere .spelled → Γ.Types m.env →
    Machine.Orderly m (.begins s :: (exec bound s).events m)
  | .constDef name ty value line, _, _, _, m, .constDef _ _ defined, spelled, hm => by
    -- What is written as the value of a constant is a literal, so nothing happens in front of it.
    obtain ⟨⟨_, _, literal, rfl⟩, _⟩ := spelled
    exact .constDef (hm.fresh defined) .nil
  | .varDef name _ value _, _, _, _, m, .varDef typed _ defined, spelled, hm => by
    rw [exec]
    refine .other trivial ?_
    refine orderly_behind_eval typed hm (eval_orderly bound typed spelled.2 hm)
      fun v m₁ ⟨_, hm₁⟩ => ?_
    exact .define (hm₁.fresh defined) .nil
  | .varDecl name _ _, _, _, _, m, .varDecl annotated defined, _, hm => by
    rw [exec]
    refine .other trivial ?_
    refine orderly_bind (orderly_quiet _ m) (compositional_replays.ofExcept _)
      (yields_initial annotated) ?_
    rintro v m₁ ⟨_, rfl⟩
    exact .define (hm.fresh defined) .nil
  | .assign _ _ _, _, _, _, _, .assign typed _ _, spelled, hm => by
    rw [exec]
    refine .other trivial ?_
    exact orderly_behind_eval typed hm (eval_orderly bound typed spelled.2 hm)
      fun _ _ _ => orderly_map (orderly_single trivial)
  | .print _ _, _, _, _, _, .print typed, spelled, hm => by
    rw [exec]
    refine .other trivial ?_
    exact orderly_behind_eval typed hm (eval_orderly bound typed spelled.2 hm)
      fun _ _ _ => orderly_map (orderly_single trivial)
  | .ifElse _ _ _ _, _, _, _, _, .ifElse typed thenAdmitted elseAdmitted, spelled, hm => by
    obtain ⟨_, spelledTest, spelledThen, spelledElse⟩ := spelled
    rw [exec]
    refine .other trivial ?_
    refine orderly_behind_eval typed hm (eval_orderly bound typed spelledTest hm)
      fun v m₁ ⟨hv, hm₁⟩ => ?_
    refine orderly_bind (orderly_quiet _ m₁) (compositional_replays.truth _ _ v)
      (yields_truth hv) ?_
    rintro holds m₂ ⟨-, rfl⟩
    cases holds with
    | true => exact orderly_inFrame (execAll_orderly bound thenAdmitted spelledThen hm₁.enter)
    | false => exact orderly_inFrame (execAll_orderly bound elseAdmitted spelledElse hm₁.enter)
  | .whileLoop test body line, Γ, _, _, m, .whileLoop typed admitted, spelled, hm => by
    obtain ⟨_, spelledTest, spelledBody⟩ := spelled
    rw [exec]
    refine .other trivial (orderly_map ?_)
    have testReplays : Replays (do
        let value ← eval bound test
        quiet (truth "while" line value) : Recorded σ Bool) :=
      (compositional_replays.eval bound test).bind fun v =>
        compositional_replays.truth "while" line v
    have bodyReplays : Replays (do
        let flow ← inFrame (execAll bound body)
        return flow ≠ .broken : Recorded σ Bool) :=
      (compositional_replays.execAll bound body).inFrame.bind fun _ => compositional_replays.pure _
    -- The frames between two repetitions are typed by the context of the loop.
    refine orderly_iterate (fun m => Γ.Types m.env) testReplays bodyReplays ?_ ?_ bound hm
    · intro m₁ hm₁
      constructor
      · refine orderly_behind_eval typed hm₁ (eval_orderly bound typed spelledTest hm₁)
          fun v m₂ _ => orderly_quiet _ m₂
      · rw [activity_bind, activity_eval, yields_bind]
        refine (eval_yields bound typed hm₁).mono fun v m₂ ⟨hv, hm₂⟩ => ?_
        refine (yields_truth hv).mono ?_
        rintro _ m₃ ⟨-, rfl⟩
        exact hm₂
    · intro m₁ hm₁
      constructor
      · exact orderly_map
          (orderly_inFrame (execAll_orderly bound admitted spelledBody hm₁.enter))
      · rw [activity_bind, inFrame, activity_execAll, yields_bind]
        have hbody := yields_inTypedFrame hm₁ (execAll_yields bound admitted hm₁.enter)
        exact hbody.mono fun _ _ h => h.2
  | .breakLoop _, _, _, _, m, _, _, _ => by
    rw [exec]
    exact .other trivial .nil
  | .continueLoop _, _, _, _, m, _, _, _ => by
    rw [exec]
    exact .other trivial .nil
  | .expr _, _, _, _, _, .expr typed, spelled, hm => by
    rw [exec]
    refine .other trivial ?_
    exact orderly_behind_eval typed hm (eval_orderly bound typed spelled.2 hm) fun _ _ _ => .nil

theorem execAll_orderly (bound : Nat) : ∀ {body : List Stmt} {Γ Δ : Context} {inLoop : Bool}
    {m : Machine σ}, AdmitsAll Γ inLoop body Δ → Stmt.AllEverywhere .spelled body →
    Γ.Types m.env → Orderly (execAll bound body) m
  | [], _, _, _, m, _, _, _ => by
    rw [execAll]
    exact .nil
  | _ :: _, _, _, _, _, .cons admitted restAdmitted, spelled, hm => by
    rw [execAll]
    have hfirst := exec_orderly bound admitted spelled.1 hm
    refine orderly_behind_exec admitted hm hfirst fun flow m₁ ⟨_, hm₁⟩ => ?_
    split
    · exact execAll_orderly bound restAdmitted spelled.2 hm₁
    · exact .nil

end

end Recorded

/-- What happens when a well-typed program is run is orderly. -/
theorem Program.history_orderly {program : Program} (wellTyped : program.WellTyped)
    (spelled : program.Spelled) {σ : Type} [Sink σ] (bound : Nat) (out : σ) :
    Machine.Orderly ⟨.root, out⟩ (program.history bound out) := by
  obtain ⟨Δ, admitted⟩ := wellTyped
  have root : Context.Types [[]] (⟨.root, out⟩ : Machine σ).env := Context.types_root
  have hyields := Machine.execAll_yields bound admitted root
  rw [← Recorded.activity_execAll] at hyields
  exact Recorded.orderly_bind (Recorded.execAll_orderly bound admitted spelled root)
    (Recorded.compositional_replays.execAll bound program.body) hyields
    fun _ _ _ => Recorded.orderly_single trivial

end BlockLang
