import BlockLang.Proofs.Machine.Yields

/-!
# What has a type runs without faults of typing

`Context.Types Γ env` says that the frames of a running program hold what the context declares:
frame by frame the same names, with values of the declared types.  Running a program keeps that:

* `eval_yields`: an expression of type `ty` ends with a value of type `ty`;
* `evalBody_yields`: so do the statements of a block expression;
* `exec_yields`, `execAll_yields`: statements leave frames behind that the context behind them
  types, and only statements in the body of a loop end with a `break` or a `continue`.

Each may also end with a tolerable fault, or not at all, in the sense of `Machine.Yields`.
-/

namespace BlockLang

/-- The kind of a binding and the type of its value. -/
def Binding.view (binding : Binding) : Option (BindingKind × Ty) :=
  some (binding.kind, binding.value.ty)

@[simp] lemma Binding.view_eq_some_iff {binding : Binding} {kind : BindingKind} {ty : Ty} :
    binding.view = some (kind, ty) ↔ binding.kind = kind ∧ binding.value.ty = ty := by
  rw [view, Option.some.injEq, Prod.mk.injEq]

/-! ## Typed frames -/

namespace Context

variable {Γ Δ : Context} {env : Environment}

/-- The frames hold values of the declared types under the declared names, and nothing else. -/
def Types (Γ : Context) (env : Environment) : Prop :=
  ∃ layers, env.Stacked layers ∧ Γ.Describes Binding.view layers

lemma types_root : Types [[]] .root :=
  ⟨_, ScopeTree.stacked_root, .cons describesScope_empty .nil⟩

namespace Types

lemma ne_nil (h : Γ.Types env) : Γ ≠ [] := by
  obtain ⟨layers, hstacked, hdescribes⟩ := h
  rintro rfl
  cases hdescribes
  exact hstacked.hasLayers.ne_nil rfl

lemma enter (h : Γ.Types env) : Types ([] :: Γ) env.enter := by
  obtain ⟨layers, hstacked, hdescribes⟩ := h
  exact ⟨_, hstacked.enter, hdescribes.enter⟩

/-- The innermost frame is gone, and the frames around it are what they were. -/
lemma exit (h : Δ.Types env) (htail : Δ.tail = Γ) (hne : Γ ≠ []) :
    Γ.Types (Environment.exit env) := by
  obtain ⟨layers, hstacked, hdescribes⟩ := h
  cases hdescribes with
  | nil => exact absurd htail.symm hne
  | cons _ houter =>
    obtain rfl : _ = Γ := htail
    refine ⟨_, hstacked.leaveAndDrop ?_, houter⟩
    rintro rfl
    cases houter
    exact hne rfl

lemma lookup (h : Γ.Types env) {name : String} {d : Declaration} (hd : Γ.Resolves name d) :
    ∃ binding, Environment.lookup env name = some binding ∧ binding.kind = d.kind ∧
      binding.value.ty = d.ty := by
  obtain ⟨layers, hstacked, hdescribes⟩ := h
  obtain ⟨binding, hbinding, hview⟩ := hdescribes.findSome?_of_resolves hd
  exact ⟨binding, (hstacked.hasLayers.get?_eq name).trans hbinding,
    Binding.view_eq_some_iff.mp hview⟩

/-- A definition binds its name to a value of the declared type. -/
lemma define (h : Γ.Types env) {d : Declaration} (hd : Γ.Declares d Δ) {value : Value}
    (hvalue : value.ty = d.ty) : Δ.Types (Environment.define env d.name d.kind value) := by
  obtain ⟨layers, hstacked, hdescribes⟩ := h
  cases hdescribes with
  | nil => exact absurd rfl hstacked.hasLayers.ne_nil
  | cons hscope houter =>
    refine ⟨_, hstacked.insert _ _, ?_⟩
    exact Describes.declare (.cons hscope houter) hd (Binding.view_eq_some_iff.mpr ⟨rfl, hvalue⟩)

/-- A variable can be given another value of its type. -/
lemma assign (h : Γ.Types env) {name : String} {d : Declaration} (hd : Γ.Resolves name d)
    (hvar : d.kind = .var) {value : Value} (hvalue : value.ty = d.ty) (line : Nat) :
    ∃ env', Environment.assign env name value line = .ok env' ∧ Γ.Types env' := by
  obtain ⟨layers, hstacked, hdescribes⟩ := h
  obtain ⟨binding, hbinding, hview⟩ := hdescribes.findSome?_of_resolves hd
  obtain ⟨hkind, hty⟩ := Binding.view_eq_some_iff.mp hview
  have hget : env.get? name = some binding := (hstacked.hasLayers.get?_eq name).trans hbinding
  obtain ⟨⟨owner, old⟩, hfound, rfl⟩ := Option.map_eq_some_iff.mp hget
  have hold : old.kind = .var := hkind.trans hvar
  refine ⟨env.insertAt owner name ⟨.var, value⟩, ?_, _, hstacked.insertAt hfound _, ?_⟩
  · rw [Environment.assign, hfound]
    simp only [hold]
  · refine hdescribes.replaceFirst hbinding ?_
    rw [hview]
    exact Binding.view_eq_some_iff.mpr ⟨hvar.symm, hvalue⟩

end Types

end Context

namespace Machine

variable {σ : Type} {m : Machine σ} {Γ Δ : Context}

/-! ## Single steps -/

lemma yields_lookup {ident : Ident} {d : Declaration} (hm : Γ.Types m.env)
    (hd : Γ.Resolves ident.name d) :
    Yields (lookup ident) m fun v m' => v.ty = d.ty ∧ Γ.Types m'.env := by
  obtain ⟨binding, hbinding, -, hty⟩ := hm.lookup hd
  unfold Yields
  rw [Attempt.run, lookup]
  simp only [hbinding]
  exact ⟨hty, hm⟩

lemma yields_define {name : Ident} {kind : BindingKind} {value : Value} (hm : Γ.Types m.env)
    (hd : Γ.Declares ⟨name.name, kind, value.ty⟩ Δ) :
    Yields (define name kind value) m fun _ m' => Δ.Types m'.env :=
  hm.define hd rfl

lemma yields_assign {target : Ident} {d : Declaration} {value : Value} (hm : Γ.Types m.env)
    (hd : Γ.Resolves target.name d) (hvar : d.kind = .var) (hvalue : value.ty = d.ty)
    (line : Nat) : Yields (assign target value line) m fun _ m' => Γ.Types m'.env := by
  obtain ⟨env', hassign, henv'⟩ := hm.assign hd hvar hvalue line
  unfold Yields
  rw [Attempt.run, assign]
  simp only [hassign]
  exact henv'

/-- A variable that is declared with one of the types begins with a value of it. -/
lemma yields_initial {name declared : Ident} {ty : Ty} (hty : ty.name = declared.name) :
    Yields (Attempt.ofExcept (initial name (some declared))) m fun v m' => v.ty = ty ∧ m' = m := by
  refine yields_ofExcept ?_
  rw [initial, Ty.ofName?_eq_some_iff.mpr hty]
  exact Value.ty_zero ty

/-- The test of a choice or a loop is a truth value. -/
lemma yields_truth {construct : String} {line : Nat} {value : Value} (hvalue : value.ty = .bool) :
    Yields (truth construct line value) m fun holds m' => value = .bool holds ∧ m' = m := by
  cases value <;> cases hvalue
  exact ⟨rfl, rfl⟩

/-- An activity in a frame of its own, behind which the frames are those in front of it. -/
lemma yields_inTypedFrame {α : Type} {x : Running σ α} {P : α → Prop} (hm : Γ.Types m.env)
    (h : Yields x ⟨m.env.enter, m.out⟩ fun a m' =>
      P a ∧ ∃ Δ : Context, Δ.tail = Γ ∧ Δ.Types m'.env) :
    Yields (inFrame x) m fun a m' => P a ∧ Γ.Types m'.env := by
  refine yields_inFrame (h.mono ?_)
  rintro a m' ⟨ha, Δ, htail, hm'⟩
  exact ⟨ha, hm'.exit htail hm.ne_nil⟩

/-! ## Expressions and statements -/

variable [Sink σ]

mutual

theorem eval_yields (bound : Nat) : ∀ {e : Expr} {Γ : Context} {ty : Ty} {m : Machine σ},
    HasType Γ e ty → Γ.Types m.env →
    Yields (eval bound e) m fun v m' => v.ty = ty ∧ Γ.Types m'.env
  | .literal value, _, _, _, .literal _ _, hm => by
    rw [eval, yields_pure]
    exact ⟨Value.ty_ofLiteral value, hm⟩
  | .name _, _, _, _, .name known, hm => by
    rw [eval]
    exact yields_lookup hm known
  | .unary _ _ line, _, _, _, .unary typed row, hm => by
    rw [eval, yields_bind]
    refine (eval_yields bound typed hm).mono fun v m₁ ⟨hv, hm₁⟩ => ?_
    refine (yields_ofExcept (Value.delivers_applyUnary row hv line)).mono ?_
    rintro v' m₂ ⟨hv', rfl⟩
    exact ⟨hv', hm₁⟩
  | .binary _ _ _ line, _, _, _, .binary leftTyped rightTyped row, hm => by
    simp only [eval, yields_bind]
    refine (eval_yields bound leftTyped hm).mono fun left m₁ ⟨hleft, hm₁⟩ => ?_
    refine (eval_yields bound rightTyped hm₁).mono fun right m₂ ⟨hright, hm₂⟩ => ?_
    refine (yields_ofExcept (Value.delivers_applyBinary row hleft hright line)).mono ?_
    rintro v m₃ ⟨hv, rfl⟩
    exact ⟨hv, hm₂⟩
  | .block _ line, _, _, _, .block typed, hm => by
    rw [eval]
    exact yields_inTypedFrame hm (evalBody_yields bound line typed hm.enter)

theorem evalBody_yields (bound line : Nat) : ∀ {body : List Stmt} {Γ : Context} {ty : Ty}
    {m : Machine σ}, HasBodyType Γ body ty → Γ.Types m.env →
    Yields (evalBody bound line body) m fun v m' =>
      v.ty = ty ∧ ∃ Δ : Context, Δ.tail = Γ.tail ∧ Δ.Types m'.env
  | [.expr _], Γ, _, _, .last typed, hm => by
    rw [evalBody]
    exact (eval_yields bound typed hm).mono fun v m' ⟨hv, hm'⟩ => ⟨hv, Γ, rfl, hm'⟩
  | _ :: _ :: _, _, _, _, .behind admitted typed, hm => by
    rw [evalBody, yields_bind]
    · refine (exec_yields bound admitted hm).mono fun flow m₁ ⟨hflow, hm₁⟩ => ?_
      -- No loop is around, so the statement has not ended with a `break` or a `continue`.
      have hnormal : flow = .normal := by simpa using hflow
      rw [if_pos hnormal]
      refine (evalBody_yields bound line typed hm₁).mono ?_
      rintro v m₂ ⟨hv, Δ, htail, hm₂⟩
      exact ⟨hv, Δ, htail.trans admitted.tail_eq, hm₂⟩
    · exact fun h => absurd h (List.cons_ne_nil _ _)

theorem exec_yields (bound : Nat) : ∀ {s : Stmt} {Γ Δ : Context} {inLoop : Bool}
    {m : Machine σ}, Admits Γ inLoop s Δ → Γ.Types m.env →
    Yields (exec bound s) m fun flow m' => (flow ≠ .normal → inLoop = true) ∧ Δ.Types m'.env
  | .constDef _ _ _ _, _, _, _, _, .constDef typed _ defined, hm => by
    simp only [exec, yields_bind, yields_pure]
    refine (eval_yields bound typed hm).mono fun v m₁ ⟨hv, hm₁⟩ => ?_
    subst hv
    exact (yields_define hm₁ defined).mono fun _ m₂ hm₂ => ⟨absurd rfl, hm₂⟩
  | .varDef _ _ _ _, _, _, _, _, .varDef typed _ defined, hm => by
    simp only [exec, yields_bind, yields_pure]
    refine (eval_yields bound typed hm).mono fun v m₁ ⟨hv, hm₁⟩ => ?_
    subst hv
    exact (yields_define hm₁ defined).mono fun _ m₂ hm₂ => ⟨absurd rfl, hm₂⟩
  | .varDecl _ _ _, _, _, _, _, .varDecl annotated defined, hm => by
    simp only [exec, yields_bind, yields_pure]
    refine (yields_initial annotated).mono ?_
    rintro v m₁ ⟨rfl, rfl⟩
    exact (yields_define hm defined).mono fun _ m₂ hm₂ => ⟨absurd rfl, hm₂⟩
  | .assign _ _ line, _, _, _, _, .assign typed known assignable, hm => by
    simp only [exec, yields_bind, yields_pure]
    refine (eval_yields bound typed hm).mono fun v m₁ ⟨hv, hm₁⟩ => ?_
    refine (yields_assign hm₁ known assignable hv line).mono ?_
    exact fun _ m₂ hm₂ => ⟨absurd rfl, hm₂⟩
  | .print _ _, _, _, _, _, .print typed, hm => by
    simp only [exec, yields_bind, yields_pure]
    refine (eval_yields bound typed hm).mono fun v m₁ ⟨_, hm₁⟩ => ?_
    refine (yields_output (Sink.write v.printed)).mono fun _ m₂ hsame => ?_
    exact ⟨absurd rfl, hsame ▸ hm₁⟩
  | .ifElse _ _ _ _, _, _, _, _, .ifElse typed thenAdmitted elseAdmitted, hm => by
    simp only [exec, yields_bind]
    refine (eval_yields bound typed hm).mono fun v m₁ ⟨hv, hm₁⟩ => ?_
    refine (yields_truth hv).mono ?_
    rintro holds m₂ ⟨-, rfl⟩
    cases holds with
    | true => exact yields_inTypedFrame hm₁ (execAll_yields bound thenAdmitted hm₁.enter)
    | false => exact yields_inTypedFrame hm₁ (execAll_yields bound elseAdmitted hm₁.enter)
  | .whileLoop _ _ line, Γ, _, _, _, .whileLoop typed admitted, hm => by
    rw [exec, yields_bind]
    -- The frames between two repetitions are typed by the context of the loop.
    refine (yields_iterate (fun m => Γ.Types m.env) ?_ ?_ bound hm).mono
      fun _ m' hm' => yields_pure.mpr ⟨absurd rfl, hm'⟩
    · intro m hm
      rw [yields_bind]
      refine (eval_yields bound typed hm).mono fun v m₁ ⟨hv, hm₁⟩ => ?_
      refine (yields_truth hv).mono ?_
      rintro _ m₂ ⟨-, rfl⟩
      exact hm₁
    · intro m hm
      simp only [yields_bind, yields_pure]
      have hbody := yields_inTypedFrame hm (execAll_yields bound admitted hm.enter)
      exact hbody.mono fun _ _ h => h.2
  | .breakLoop _, _, _, _, _, .breakLoop, hm => by
    rw [exec, yields_pure]
    exact ⟨fun _ => rfl, hm⟩
  | .continueLoop _, _, _, _, _, .continueLoop, hm => by
    rw [exec, yields_pure]
    exact ⟨fun _ => rfl, hm⟩
  | .expr _, _, _, _, _, .expr typed, hm => by
    simp only [exec, yields_bind, yields_pure]
    exact (eval_yields bound typed hm).mono fun _ m' ⟨_, hm'⟩ => ⟨absurd rfl, hm'⟩

theorem execAll_yields (bound : Nat) : ∀ {body : List Stmt} {Γ Δ : Context} {inLoop : Bool}
    {m : Machine σ}, AdmitsAll Γ inLoop body Δ → Γ.Types m.env →
    Yields (execAll bound body) m fun flow m' =>
      (flow ≠ .normal → inLoop = true) ∧ ∃ Δ' : Context, Δ'.tail = Γ.tail ∧ Δ'.Types m'.env
  | [], Γ, _, _, _, .nil, hm => by
    rw [execAll, yields_pure]
    exact ⟨absurd rfl, Γ, rfl, hm⟩
  | _ :: _, _, _, _, _, .cons admitted restAdmitted, hm => by
    rw [execAll, yields_bind]
    refine (exec_yields bound admitted hm).mono fun flow m₁ ⟨hflow, hm₁⟩ => ?_
    split
    · refine (execAll_yields bound restAdmitted hm₁).mono ?_
      rintro flow' m₂ ⟨hflow', Δ', htail, hm₂⟩
      exact ⟨hflow', Δ', htail.trans admitted.tail_eq, hm₂⟩
    · exact yields_pure.mpr ⟨hflow, _, admitted.tail_eq, hm₁⟩

end

end Machine

end BlockLang
