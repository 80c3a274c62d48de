import BlockLang.Machine.Execution
import Mathlib.Tactic.Common

/-!
# What a run leaves of the frames

Frames are entered and left around code that may end in the middle: by a `break` or a `continue`,
by a fault, by an output that is refused.  However it ends, the frames are in balance again.

`Environment.Keeps free env env'` says what may have become of the frames: there are as many of
them, linked in the same way, the same one is the innermost, and they bind the same names as
before, constants to the same values.  Only the names `free` may have been defined anew, and only
in the innermost frame.  `Machine.Keeping free x` says that an activity leaves the frames so
whenever it comes to an end, with one lemma for each way in which activities are put together.

An expression keeps all names (`Machine.eval_keeping`), and so do statements in a frame of their
own; statements keep all names but those that they define themselves (`Machine.exec_keeping`,
`Machine.execAll_keeping`).  Nothing is asked of the frames at the beginning.
-/

namespace BlockLang

/-! ## Frames that differ in variables only -/

/-- What may become of a binding while nothing defines its name again. -/
inductive Binding.Persists : Option Binding → Option Binding → Prop
  | unbound : Persists none none
  | const (value : Value) : Persists (some ⟨.const, value⟩) (some ⟨.const, value⟩)
  | var (old new : Value) : Persists (some ⟨.var, old⟩) (some ⟨.var, new⟩)

namespace Binding.Persists

lemma refl : ∀ binding : Option Binding, Persists binding binding
  | none => .unbound
  | some ⟨.const, value⟩ => .const value
  | some ⟨.var, value⟩ => .var value value

lemma trans {first second third : Option Binding} (h : Persists first second)
    (h' : Persists second third) : Persists first third := by
  cases h with
  | unbound => exact h'
  | const value => exact h'
  | var old new =>
    cases h' with
    | var _ newer => exact .var old newer

lemma isSome_eq {old new : Option Binding} (h : Persists old new) : new.isSome = old.isSome := by
  cases h <;> rfl

end Binding.Persists

namespace Environment

/-- What the frame with a given number binds a name to. -/
def bound? (env : Environment) (id : Nat) (name : String) : Option Binding :=
  env.scopes[id]?.bind (·.names.get? name)

/-- The frames are what they were, except that variables may have other values and that the names
`free` may have been defined in the innermost frame. -/
structure Keeps (free : List String) (env env' : Environment) : Prop where
  depth_eq : env'.depth = env.depth
  current_eq : env'.current = env.current
  parent_eq : ∀ id : Nat, env'.scopes[id]?.map (·.parent) = env.scopes[id]?.map (·.parent)
  persists : ∀ (id : Nat) (name : String), (id = env.current → name ∉ free) →
    Binding.Persists (env.bound? id name) (env'.bound? id name)
  /-- Also a name that is defined again stays bound. -/
  bound : ∀ (id : Nat) (name : String), (env.bound? id name).isSome = true →
    (env'.bound? id name).isSome = true

variable {env env' env'' : Environment} {free free' : List String}

namespace Keeps

lemma refl (free : List String) (env : Environment) : Keeps free env env where
  depth_eq := rfl
  current_eq := rfl
  parent_eq _ := rfl
  persists id name _ := .refl (env.bound? id name)
  bound _ _ h := h

lemma trans (h : Keeps free env env') (h' : Keeps free env' env'') : Keeps free env env'' where
  depth_eq := h'.depth_eq.trans h.depth_eq
  current_eq := h'.current_eq.trans h.current_eq
  parent_eq id := (h'.parent_eq id).trans (h.parent_eq id)
  persists id name hname := by
    have hname' : id = env'.current → name ∉ free := by
      rw [h.current_eq]
      exact hname
    exact (h.persists id name hname).trans (h'.persists id name hname')
  bound id name hbound := h'.bound id name (h.bound id name hbound)

/-- More names may be free to be defined. -/
lemma mono (h : Keeps free env env') (hsub : free ⊆ free') : Keeps free' env env' where
  depth_eq := h.depth_eq
  current_eq := h.current_eq
  parent_eq := h.parent_eq
  persists id name hname := h.persists id name fun hid hmem => hname hid (hsub hmem)
  bound := h.bound

end Keeps

/-- What a new value for a name changes in the frames. -/
lemma bound?_insertAt (env : Environment) (owner id : Nat) (name other : String)
    (binding : Binding) :
    bound? (env.insertAt owner name binding) id other =
      if id = owner ∧ other = name ∧ id < env.scopes.size then some binding
      else env.bound? id other := by
  rw [bound?, bound?, ScopeTree.insertAt, Array.getElem?_modify]
  by_cases howner : owner = id
  · subst howner
    by_cases hid : owner < env.scopes.size
    · simp [hid, NameMap.get?_insert]
    · simp [hid]
  · have hne : ¬ id = owner := fun h => howner h.symm
    simp [howner, hne]

/-- A definition binds its name in the innermost frame. -/
lemma bound?_define (h : env.current < env.depth) (name : String) (kind : BindingKind)
    (value : Value) :
    bound? (env.define name kind value) env.current name = some ⟨kind, value⟩ := by
  rw [define, ScopeTree.insert, bound?_insertAt, if_pos ⟨rfl, rfl, h⟩]

lemma parent_insertAt (env : Environment) (owner id : Nat) (name : String) (binding : Binding) :
    (env.insertAt owner name binding).scopes[id]?.map (·.parent) =
      env.scopes[id]?.map (·.parent) := by
  rw [ScopeTree.insertAt, Array.getElem?_modify]
  split <;> simp [Option.map_map, Function.comp_def]

/-- A definition leaves all other names alone. -/
lemma keeps_define (env : Environment) (name : String) (kind : BindingKind) (value : Value) :
    Keeps [name] env (env.define name kind value) where
  depth_eq := by simp [depth, define, ScopeTree.insert]
  current_eq := rfl
  parent_eq id := parent_insertAt env env.current id name ⟨kind, value⟩
  persists id other hother := by
    rw [define, ScopeTree.insert, bound?_insertAt, if_neg]
    · exact .refl _
    · rintro ⟨hid, rfl, _⟩
      exact hother hid (List.mem_singleton_self _)
  bound id other hbound := by
    rw [define, ScopeTree.insert, bound?_insertAt]
    split
    · rfl
    · exact hbound

/-- A name is found in a frame that binds it. -/
lemma bound?_of_findFrom {name : String} {owner : Nat} {binding : Binding} :
    ∀ {steps : Nat} {start : Option Nat}, env.findFrom name steps start = some (owner, binding) →
      env.bound? owner name = some binding
  | 0, start, h => by
    cases start <;> cases h
  | steps + 1, none, h => by cases h
  | steps + 1, some id, h => by
    rw [ScopeTree.findFrom] at h
    cases hscope : env.scopes[id]? with
    | none => simp [hscope] at h
    | some scope =>
      simp only [hscope] at h
      cases hname : scope.names.get? name with
      | none =>
        simp only [hname] at h
        exact bound?_of_findFrom h
      | some value =>
        simp only [hname, Option.some.injEq, Prod.mk.injEq] at h
        obtain ⟨rfl, rfl⟩ := h
        rw [bound?, hscope]
        exact hname

/-- An assignment gives a variable another value and does nothing else. -/
lemma keeps_assign {name : String} {value : Value} {line : Nat}
    (h : env.assign name value line = .ok env') : Keeps [] env env' := by
  rw [assign] at h
  cases hfind : env.find? name with
  | none => simp [hfind] at h
  | some found =>
    obtain ⟨owner, ⟨kind, old⟩⟩ := found
    have hold : env.bound? owner name = some ⟨kind, old⟩ := bound?_of_findFrom hfind
    cases kind with
    | const => simp [hfind] at h
    | var =>
      simp only [hfind, Except.ok.injEq] at h
      subst h
      have hpersists : ∀ (id : Nat) (other : String), Binding.Persists (env.bound? id other)
          (bound? (env.insertAt owner name ⟨.var, value⟩) id other) := by
        intro id other
        rw [bound?_insertAt]
        split
        · next hhere =>
          obtain ⟨rfl, rfl, _⟩ := hhere
          rw [hold]
          exact .var old value
        · exact .refl _
      exact
        { depth_eq := by simp [depth]
          current_eq := rfl
          parent_eq := fun id => parent_insertAt env owner id name ⟨.var, value⟩
          persists := fun id other _ => hpersists id other
          bound := fun id other hbound => by rwa [(hpersists id other).isSome_eq] }

/-- Leaving a frame takes the frames back to what they were when it was entered. -/
lemma keeps_exit (h : Keeps free env.enter env') : Keeps [] env (exit env') := by
  have hcurrent : env'.current = env.scopes.size := h.current_eq
  have hsize : env'.scopes.size = env.scopes.size + 1 := by
    have hdepth := h.depth_eq
    simpa [depth, ScopeTree.enter] using hdepth
  have hparent : env'.parent? = some env.current := by
    have hlink := h.parent_eq env.scopes.size
    simp only [ScopeTree.enter, Array.getElem?_push_size, Option.map_some,
      Option.map_eq_some_iff] at hlink
    obtain ⟨scope, hscope, hup⟩ := hlink
    rw [ScopeTree.parent?, hcurrent, hscope]
    exact hup
  have hexit : exit env' = ⟨env'.scopes.pop, env.current⟩ := by
    rw [exit, ScopeTree.leaveAndDrop, hparent]
  -- Each frame but the last is untouched by entering and by leaving.
  have hframes : ∀ id < env.scopes.size,
      (exit env').scopes[id]? = env'.scopes[id]? ∧ env.enter.scopes[id]? = env.scopes[id]? := by
    intro id hid
    constructor
    · rw [hexit, Array.getElem?_pop, if_pos (by omega)]
    · rw [ScopeTree.enter, Array.getElem?_push, if_neg (by omega)]
  have houtside : ∀ id, ¬ id < env.scopes.size →
      (exit env').scopes[id]? = none ∧ env.scopes[id]? = none := by
    intro id hid
    constructor
    · rw [hexit, Array.getElem?_eq_none]
      rw [Array.size_pop]
      omega
    · exact Array.getElem?_eq_none (by omega)
  have hpersists : ∀ (id : Nat) (name : String),
      Binding.Persists (env.bound? id name) ((exit env').bound? id name) := by
    intro id name
    by_cases hid : id < env.scopes.size
    · have hinner := h.persists id name fun heq => absurd hid (by
        rw [heq]
        exact Nat.lt_irrefl _)
      obtain ⟨hleft, hentered⟩ := hframes id hid
      rw [bound?, bound?, hentered] at hinner
      rw [bound?, bound?, hleft]
      exact hinner
    · obtain ⟨hleft, hnone⟩ := houtside id hid
      rw [bound?, bound?, hleft, hnone]
      exact .unbound
  exact
    { depth_eq := by
        rw [depth, hexit, Array.size_pop, hsize]
        rfl
      current_eq := by rw [hexit]
      parent_eq := fun id => by
        by_cases hid : id < env.scopes.size
        · obtain ⟨hleft, hentered⟩ := hframes id hid
          rw [hleft, h.parent_eq id, hentered]
        · obtain ⟨hleft, hnone⟩ := houtside id hid
          rw [hleft, hnone]
      persists := fun id name _ => hpersists id name
      bound := fun id name hbound => by rwa [(hpersists id name).isSome_eq] }

end Environment

/-! ## Activities that keep the frames -/

namespace Machine

open Environment

variable {σ α β : Type} {free : List String}

/-- When the activity comes to an end, the frames are kept but for the names `free`. -/
def Keeping (free : List String) (x : Running σ α) : Prop :=
  ∀ m : Machine σ, (x.run m).1.isFinished = true → Keeps free m.env (x.run m).2.env

/-- An activity that leaves the environment alone. -/
lemma keeping_of_env_eq {x : Running σ α} (h : ∀ m, (x.run m).2.env = m.env) :
    Keeping free x := by
  intro m _
  rw [h m]
  exact .refl free m.env

lemma Keeping.mono {free' : List String} {x : Running σ α} (h : Keeping free x)
    (hsub : free ⊆ free') : Keeping free' x :=
  fun m hfinished => (h m hfinished).mono hsub

lemma keeping_pure (a : α) : Keeping free (pure a : Running σ α) :=
  keeping_of_env_eq fun _ => rfl

lemma keeping_fail (fault : Fault) : Keeping free (Attempt.fail fault : Running σ α) :=
  keeping_of_env_eq fun _ => rfl

lemma keeping_ofExcept (result : Except Fault α) :
    Keeping free (Attempt.ofExcept result : Running σ α) :=
  keeping_of_env_eq fun _ => by cases result <;> rfl

/-- Of two activities one behind the other each keeps the frames. -/
lemma Keeping.bind {x : Running σ α} {f : α → Running σ β} (hx : Keeping free x)
    (hf : ∀ a, Keeping free (f a)) : Keeping free (x >>= f) := by
  intro m hfinished
  have hfirst := hx m
  rw [Attempt.run_bind] at hfinished ⊢
  generalize x.run m = ending at hfirst hfinished ⊢
  obtain ⟨outcome, m₁⟩ := ending
  cases outcome with
  | done a => exact (hfirst rfl).trans (hf a m₁ hfinished)
  | failed fault => exact hfirst rfl
  | unfinished => cases hfinished

/-- In a frame of its own an activity may define what it likes. -/
lemma Keeping.inFrame {x : Running σ α} (h : Keeping free x) : Keeping [] (inFrame x) := by
  intro m hfinished
  have hinner := h ⟨m.env.enter, m.out⟩
  rw [Machine.inFrame, Attempt.run_bind, Attempt.run_modify] at hfinished ⊢
  simp only [Attempt.run_thenAlways] at hfinished ⊢
  generalize x.run ⟨m.env.enter, m.out⟩ = ending at hinner hfinished ⊢
  obtain ⟨outcome, m₁⟩ := ending
  cases outcome with
  | done a => exact keeps_exit (hinner rfl)
  | failed fault => exact keeps_exit (hinner rfl)
  | unfinished => cases hfinished

/-- What the test and the body of a loop keep is kept by any number of repetitions. -/
lemma Keeping.iterate {test body : Running σ Bool} (htest : Keeping free test)
    (hbody : Keeping free body) (steps : Nat) :
    Keeping free (Attempt.iterate test body steps) := by
  induction steps with
  | zero =>
    intro m hfinished
    cases hfinished
  | succ steps ih =>
    intro m hfinished
    have hbehindTest := htest m
    rw [Attempt.run, Attempt.iterate] at hfinished ⊢
    rw [Attempt.run] at hbehindTest
    generalize test m = ending at hbehindTest hfinished ⊢
    obtain ⟨outcome, m₁⟩ := ending
    cases outcome with
    | unfinished => cases hfinished
    | failed fault => exact hbehindTest rfl
    | done holds =>
      cases holds with
      | false => exact hbehindTest rfl
      | true =>
        have hbehindBody := hbody m₁
        rw [Attempt.run] at hbehindBody
        dsimp only at hfinished ⊢
        generalize body m₁ = ending' at hbehindBody hfinished ⊢
        obtain ⟨outcome', m₂⟩ := ending'
        cases outcome' with
        | unfinished => cases hfinished
        | failed fault => exact (hbehindTest rfl).trans (hbehindBody rfl)
        | done again =>
          have hrepetition := (hbehindTest rfl).trans (hbehindBody rfl)
          cases again with
          | false => exact hrepetition
          | true => exact hrepetition.trans (ih m₂ hfinished)

lemma keeping_lookup (ident : Ident) : Keeping free (lookup ident : Running σ Value) := by
  refine keeping_of_env_eq fun m => ?_
  rw [Attempt.run, lookup]
  split <;> rfl

lemma keeping_define (name : Ident) (kind : BindingKind) (value : Value) :
    Keeping [name.name] (define name kind value : Running σ Unit) :=
  fun m _ => keeps_define m.env name.name kind value

lemma keeping_assign (target : Ident) (value : Value) (line : Nat) :
    Keeping [] (assign target value line : Running σ Unit) := by
  intro m _
  rw [Attempt.run, assign]
  split
  · next env hassign => exact keeps_assign hassign
  · exact .refl [] m.env

lemma keeping_output (operation : σ → Option String × σ) :
    Keeping free (output operation) := by
  refine keeping_of_env_eq fun m => ?_
  rw [Attempt.run, output]
  split <;> rfl

lemma keeping_truth (construct : String) (line : Nat) (value : Value) :
    Keeping free (truth construct line value : Running σ Bool) :=
  keeping_of_env_eq fun _ => by cases value <;> rfl

end Machine

/-! ## Expressions and statements -/

/-- The names that a statement defines in the frame that it is carried out in. -/
def Stmt.defined : Stmt → List String
  | .constDef name _ _ _ | .varDef name _ _ _ | .varDecl name _ _ => [name.name]
  | _ => []

/-- The names that some statements define in the frame that they are carried out in. -/
def Stmt.allDefined (body : List Stmt) : List String :=
  body.flatMap Stmt.defined

lemma Stmt.defined_subset (first : Stmt) (rest : List Stmt) :
    first.defined ⊆ Stmt.allDefined (first :: rest) := by
  rw [allDefined, List.flatMap_cons]
  exact List.subset_append_left _ _

lemma Stmt.allDefined_subset (first : Stmt) (rest : List Stmt) :
    Stmt.allDefined rest ⊆ Stmt.allDefined (first :: rest) := by
  rw [allDefined, allDefined, List.flatMap_cons]
  exact List.subset_append_right _ _

namespace Machine

open Environment

variable {σ : Type} [Sink σ]

mutual

/-- An expression leaves the frames as they are but for the values of variables. -/
theorem eval_keeping (bound : Nat) : ∀ e : Expr, Keeping [] (eval bound e : Running σ Value)
  | .literal value => by
    rw [eval]
    exact keeping_pure _
  | .name ident => by
    rw [eval]
    exact keeping_lookup ident
  | .unary op operand line => by
    rw [eval]
    exact (eval_keeping bound operand).bind fun _ => keeping_ofExcept _
  | .binary op left right line => by
    rw [eval]
    exact (eval_keeping bound left).bind fun _ =>
      (eval_keeping bound right).bind fun _ => keeping_ofExcept _
  | .block body line => by
    rw [eval]
    exact (evalBody_keeping bound line body).inFrame

theorem evalBody_keeping (bound line : Nat) : ∀ body : List Stmt,
    Keeping (Stmt.allDefined body) (evalBody bound line body : Running σ Value)
  | [] => by
    rw [evalBody]
    exact keeping_fail _
  | [last] => by
    cases last with
    | expr value =>
      rw [evalBody]
      exact (eval_keeping bound value).mono (List.nil_subset _)
    | _ =>
      rw [evalBody]
      · exact keeping_fail _
      · exact nofun
  | first :: second :: rest => by
    rw [evalBody]
    · have hfirst : Keeping (Stmt.allDefined (first :: second :: rest))
          (exec bound first : Running σ Flow) :=
        (exec_keeping bound first).mono (Stmt.defined_subset first (second :: rest))
      refine hfirst.bind fun flow => ?_
      split
      · exact (evalBody_keeping bound line (second :: rest)).mono
          (Stmt.allDefined_subset first (second :: rest))
      · exact keeping_fail _
    · exact fun h => absurd h (List.cons_ne_nil _ _)

/-- A statement keeps all names but the one that it defines. -/
theorem exec_keeping (bound : Nat) : ∀ s : Stmt, Keeping s.defined (exec bound s : Running σ Flow)
  | .constDef name ty value line => by
    rw [exec]
    refine ((eval_keeping bound value).mono (List.nil_subset _)).bind fun v => ?_
    exact (keeping_define name .const v).bind fun _ => keeping_pure _
  | .varDef name ty value line => by
    rw [exec]
    refine ((eval_keeping bound value).mono (List.nil_subset _)).bind fun v => ?_
    exact (keeping_define name .var v).bind fun _ => keeping_pure _
  | .varDecl name ty line => by
    rw [exec]
    refine (keeping_ofExcept _).bind fun v => ?_
    exact (keeping_define name .var v).bind fun _ => keeping_pure _
  | .assign target value line => by
    rw [exec]
    refine (eval_keeping bound value).bind fun v => ?_
    exact (keeping_assign target v line).bind fun _ => keeping_pure _
  | .print value line => by
    rw [exec]
    refine (eval_keeping bound value).bind fun v => ?_
    exact (keeping_output _).bind fun _ => keeping_pure _
  | .ifElse test thenBlock elseBlock line => by
    rw [exec]
    refine (eval_keeping bound test).bind fun v => (keeping_truth "if" line v).bind fun holds => ?_
    split
    · exact (execAll_keeping bound thenBlock).inFrame
    · exact (execAll_keeping bound elseBlock).inFrame
  | .whileLoop test body line => by
    rw [exec]
    have htest : Keeping [] (do
        let value ← eval bound test
        truth "while" line value : Running σ Bool) :=
      (eval_keeping bound test).bind fun v => keeping_truth "while" line v
    have hbody : Keeping [] (do
        let flow ← inFrame (execAll bound body)
        return flow ≠ .broken : Running σ Bool) :=
      (execAll_keeping bound body).inFrame.bind fun _ => keeping_pure _
    exact (htest.iterate hbody bound).bind fun _ => keeping_pure _
  | .breakLoop line => by
    rw [exec]
    exact keeping_pure _
  | .continueLoop line => by
    rw [exec]
    exact keeping_pure _
  | .expr value => by
    rw [exec]
    exact (eval_keeping bound value).bind fun _ => keeping_pure _

/-- Statements keep all names but those that they define themselves. -/
theorem execAll_keeping (bound : Nat) : ∀ body : List Stmt,
    Keeping (Stmt.allDefined body) (execAll bound body : Running σ Flow)
  | [] => by
    rw [execAll]
    exact keeping_pure _
  | first :: rest => by
    rw [execAll]
    have hfirst : Keeping (Stmt.allDefined (first :: rest)) (exec bound first : Running σ Flow) :=
      (exec_keeping bound first).mono (Stmt.defined_subset first rest)
    refine hfirst.bind fun flow => ?_
    split
    · exact (execAll_keeping bound rest).mono (Stmt.allDefined_subset first rest)
    · exact keeping_pure _

end

/-- However it ends, a run of a piece of a program leaves the frames in balance.  Behind statements
in a frame of their own, and behind an expression, there are the frames that there were, with the
same links and the same names, of which only variables may have other values.  Behind a statement
or statements in the innermost frame the same holds, except that this frame may have new
definitions of the names that the statements define themselves. -/
theorem frames_kept (bound : Nat) (m m' : Machine σ) :
    (∀ (body : List Stmt) (outcome : Outcome Fault Flow),
      (inFrame (execAll bound body)).run m = (outcome, m') → outcome.isFinished = true →
        Keeps [] m.env m'.env) ∧
    (∀ (e : Expr) (outcome : Outcome Fault Value),
      (eval bound e).run m = (outcome, m') → outcome.isFinished = true → Keeps [] m.env m'.env) ∧
    (∀ (s : Stmt) (outcome : Outcome Fault Flow),
      (exec bound s).run m = (outcome, m') → outcome.isFinished = true →
        Keeps s.defined m.env m'.env) ∧
    ∀ (body : List Stmt) (outcome : Outcome Fault Flow),
      (execAll bound body).run m = (outcome, m') → outcome.isFinished = true →
        Keeps (Stmt.allDefined body) m.env m'.env := by
  refine ⟨fun body outcome hrun hfinished => ?_, fun e outcome hrun hfinished => ?_,
    fun s outcome hrun hfinished => ?_, fun body outcome hrun hfinished => ?_⟩
  · have hkept := (execAll_keeping bound body).inFrame m
    rw [hrun] at hkept
    exact hkept hfinished
  · have hkept := eval_keeping bound e m
    rw [hrun] at hkept
    exact hkept hfinished
  · have hkept := exec_keeping bound s m
    rw [hrun] at hkept
    exact hkept hfinished
  · have hkept := execAll_keeping bound body m
    rw [hrun] at hkept
    exact hkept hfinished

/-- A block that changes the variable `x`, defines a `y` of its own and then fails: the frame in
front of it is there again, with the new value of `x`. -/
theorem frames_kept_failing :
    Keeps [] (Environment.define .root "x" .var (.int 1))
      (Environment.define .root "x" .var (.int 2)) := by
  have hrun : (inFrame (execAll 0 [.assign ⟨"x", 1⟩ (.literal (.int 2 1)) 1,
      .varDef ⟨"y", 1⟩ none (.literal (.int 3 1)) 1, .expr (.name ⟨"z", 1⟩)])).run
        ⟨Environment.define .root "x" .var (.int 1), Buffer.unbounded⟩ =
      (.failed (.undefinedVariable "z" 1),
        ⟨Environment.define .root "x" .var (.int 2), Buffer.unbounded⟩) := rfl
  exact (frames_kept 0 _ _).1 _ _ hrun rfl

end Machine

end BlockLang
