import BlockLang.Proofs.Machine.Relabelling
import BlockLang.Proofs.Typing.Relabelling
import Mathlib.SetTheory.Cardinal.Arithmetic

/-!
# Names are not special

Other names for the constants and variables of a program, different ones for different names,
change nothing but the names in faults (`Program.rename_alike`).

A renaming need only tell the names of the program apart, while a `Relabelling` tells all names
apart.  Two facts bridge the gap.  What is asked of finitely many names can be asked of all of them
(`Relabelling.exists_extension`), and a fault mentions only names of the program: a name that a
fault mentions and the program does not could be exchanged for any other name without a change of
the program, and so without a change of the fault (`Fault.mem_names_of_fixed`).
-/

namespace BlockLang

variable {f g : String → String} {hg : Function.Injective g}

/-! ## The names of a program -/

mutual

/-- The names of constants and variables in an expression, at any depth. -/
def Expr.names : Expr → List String
  | .literal _ => []
  | .name ident => [ident.name]
  | .unary _ operand _ => operand.names
  | .binary _ left right _ => left.names ++ right.names
  | .block body _ => Stmt.allNames body

/-- The names of constants and variables in a statement, at any depth. -/
def Stmt.names : Stmt → List String
  | .constDef name _ value _ | .varDef name _ value _ => name.name :: value.names
  | .varDecl name _ _ => [name.name]
  | .assign target value _ => target.name :: value.names
  | .print value _ | .expr value => value.names
  | .ifElse test thenBlock elseBlock _ =>
    test.names ++ (Stmt.allNames thenBlock ++ Stmt.allNames elseBlock)
  | .whileLoop test body _ => test.names ++ Stmt.allNames body
  | .breakLoop _ | .continueLoop _ => []

def Stmt.allNames : List Stmt → List String
  | [] => []
  | first :: rest => first.names ++ Stmt.allNames rest

end

def Program.names (program : Program) : List String :=
  Stmt.allNames program.body

/-! ## Renaming -/

def Ident.rename (f : String → String) (ident : Ident) : Ident :=
  ⟨f ident.name, ident.line⟩

mutual

/-- An expression with other names for constants and variables. -/
def Expr.rename (f : String → String) : Expr → Expr
  | .literal value => .literal value
  | .name ident => .name (ident.rename f)
  | .unary op operand line => .unary op (operand.rename f) line
  | .binary op left right line => .binary op (left.rename f) (right.rename f) line
  | .block body line => .block (Stmt.renameAll f body) line

/-- A statement with other names for constants and variables.  The names of types stay. -/
def Stmt.rename (f : String → String) : Stmt → Stmt
  | .constDef name ty value line => .constDef (name.rename f) ty (value.rename f) line
  | .varDef name ty value line => .varDef (name.rename f) ty (value.rename f) line
  | .varDecl name ty line => .varDecl (name.rename f) ty line
  | .assign target value line => .assign (target.rename f) (value.rename f) line
  | .print value line => .print (value.rename f) line
  | .ifElse test thenBlock elseBlock line =>
    .ifElse (test.rename f) (Stmt.renameAll f thenBlock) (Stmt.renameAll f elseBlock) line
  | .whileLoop test body line => .whileLoop (test.rename f) (Stmt.renameAll f body) line
  | .breakLoop line => .breakLoop line
  | .continueLoop line => .continueLoop line
  | .expr value => .expr (value.rename f)

def Stmt.renameAll (f : String → String) : List Stmt → List Stmt
  | [] => []
  | first :: rest => first.rename f :: Stmt.renameAll f rest

end

/-- A program with other names for constants and variables. -/
def Program.rename (f : String → String) (program : Program) : Program :=
  ⟨Stmt.renameAll f program.body⟩

/-- Other names for all constants and variables, on the same lines. -/
def Relabelling.ofNames (g : String → String) (hg : Function.Injective g) : Relabelling :=
  ⟨g, id, hg⟩

lemma Ident.relabelType_ofNames (ty : Option Ident) :
    ty.map (Ident.relabelType (.ofNames g hg)) = ty := by
  cases ty <;> rfl

mutual

lemma Expr.rename_eq_relabel : ∀ {e : Expr}, (∀ name ∈ e.names, f name = g name) →
    e.rename f = e.relabel (.ofNames g hg)
  | .literal value, _ => by cases value <;> rfl
  | .name ident, h => by
    have hname := h ident.name (List.mem_singleton_self _)
    rw [Expr.rename, Ident.rename, hname]
    rfl
  | .unary _ operand _, h => by
    have hoperand : ∀ name ∈ operand.names, f name = g name := h
    rw [Expr.rename, Expr.rename_eq_relabel hoperand]
    rfl
  | .binary _ _ _ _, h => by
    obtain ⟨hleft, hright⟩ := List.forall_mem_append.mp h
    rw [Expr.rename, Expr.rename_eq_relabel hleft, Expr.rename_eq_relabel hright]
    rfl
  | .block _ _, h => by
    rw [Expr.rename, Stmt.renameAll_eq_relabelAll h]
    rfl

lemma Stmt.rename_eq_relabel : ∀ {s : Stmt}, (∀ name ∈ s.names, f name = g name) →
    s.rename f = s.relabel (.ofNames g hg)
  | .constDef _ _ _ _, h | .varDef _ _ _ _, h => by
    obtain ⟨hname, hvalue⟩ := List.forall_mem_cons.mp h
    rw [Stmt.rename, Stmt.relabel, Ident.rename, hname, Expr.rename_eq_relabel hvalue,
      Ident.relabelType_ofNames]
    rfl
  | .varDecl _ _ _, h => by
    rw [Stmt.rename, Stmt.relabel, Ident.rename, h _ (List.mem_singleton_self _),
      Ident.relabelType_ofNames]
    rfl
  | .assign _ _ _, h => by
    obtain ⟨hname, hvalue⟩ := List.forall_mem_cons.mp h
    rw [Stmt.rename, Ident.rename, hname, Expr.rename_eq_relabel hvalue]
    rfl
  | .print _ _, h | .expr _, h => by
    rw [Stmt.rename, Expr.rename_eq_relabel h]
    rfl
  | .ifElse _ _ _ _, h => by
    obtain ⟨htest, hblocks⟩ := List.forall_mem_append.mp h
    obtain ⟨hthen, helse⟩ := List.forall_mem_append.mp hblocks
    rw [Stmt.rename, Expr.rename_eq_relabel htest, Stmt.renameAll_eq_relabelAll hthen,
      Stmt.renameAll_eq_relabelAll helse]
    rfl
  | .whileLoop _ _ _, h => by
    obtain ⟨htest, hbody⟩ := List.forall_mem_append.mp h
    rw [Stmt.rename, Expr.rename_eq_relabel htest, Stmt.renameAll_eq_relabelAll hbody]
    rfl
  | .breakLoop _, _ | .continueLoop _, _ => rfl

lemma Stmt.renameAll_eq_relabelAll : ∀ {body : List Stmt},
    (∀ name ∈ Stmt.allNames body, f name = g name) →
    Stmt.renameAll f body = Stmt.relabelAll (.ofNames g hg) body
  | [], _ => rfl
  | _ :: _, h => by
    obtain ⟨hfirst, hrest⟩ := List.forall_mem_append.mp h
    rw [Stmt.renameAll, Stmt.rename_eq_relabel hfirst, Stmt.renameAll_eq_relabelAll hrest]
    rfl

end

/-- Renaming is relabelling with names that are the same on the names of the program. -/
lemma Program.rename_eq_relabel {program : Program} (h : ∀ name ∈ program.names, f name = g name) :
    program.rename f = program.relabel (.ofNames g hg) :=
  congrArg Program.mk (Stmt.renameAll_eq_relabelAll h)

/-- A program does not change where its own names stay. -/
lemma Program.relabel_of_fixed {program : Program} (h : ∀ name ∈ program.names, g name = name) :
    program.relabel (.ofNames g hg) = program := by
  have hstays : program.rename id = program.relabel .identity := rename_eq_relabel fun _ _ => rfl
  have hmoves : program.rename id = program.relabel (.ofNames g hg) :=
    rename_eq_relabel fun name hname => (h name hname).symm
  rw [← hmoves, hstays, program.relabel_identity]

/-! ## The names in faults -/

mutual

/-- The names of constants and variables that a fault mentions. -/
def Fault.names : Fault → List String
  | .constNotLiteral name _ | .missingTypeOrValue name _ | .undefinedName name _
  | .assignToConst name _ | .typeMismatch name _ _ _ | .duplicateDefinition name _
  | .undefinedVariable name _ => [name]
  | .typeErrors faults => Fault.allNames faults
  | _ => []

def Fault.allNames : List Fault → List String
  | [] => []
  | first :: rest => first.names ++ Fault.allNames rest

end

mutual

/-- A fault with other names for constants and variables. -/
def Fault.rename (f : String → String) : Fault → Fault
  | .constNotLiteral name line => .constNotLiteral (f name) line
  | .missingTypeOrValue name line => .missingTypeOrValue (f name) line
  | .undefinedName name line => .undefinedName (f name) line
  | .assignToConst name line => .assignToConst (f name) line
  | .typeMismatch name expected got line => .typeMismatch (f name) expected got line
  | .duplicateDefinition name line => .duplicateDefinition (f name) line
  | .undefinedVariable name line => .undefinedVariable (f name) line
  | .typeErrors faults => .typeErrors (Fault.renameAll f faults)
  | fault => fault

/-- The faults of a collection, each for itself and in the same order. -/
def Fault.renameAll (f : String → String) : List Fault → List Fault
  | [] => []
  | first :: rest => first.rename f :: Fault.renameAll f rest

end

mutual

lemma Fault.rename_eq_relabel : ∀ {fault : Fault}, (∀ name ∈ fault.names, f name = g name) →
    fault.rename f = fault.relabel (.ofNames g hg)
  | .typeErrors faults, h => congrArg Fault.typeErrors (Fault.renameAll_eq_relabelAll h)
  | .constNotLiteral name _, h | .missingTypeOrValue name _, h | .undefinedName name _, h
  | .assignToConst name _, h | .typeMismatch name _ _ _, h | .duplicateDefinition name _, h
  | .undefinedVariable name _, h => by
    rw [Fault.rename, h name (List.mem_singleton_self _)]
    rfl
  | .illegalCharacter .., _ | .unterminatedComment .., _ | .unterminatedChar .., _
  | .unexpectedToken .., _ | .invalidLiteral .., _ | .binaryMismatch .., _ | .unaryMismatch .., _
  | .conditionNotBool .., _ | .unknownType .., _ | .loopControlOutsideLoop .., _
  | .blockWithoutValue .., _ | .divisionByZero .., _ | .integerOverflow .., _
  | .operandMismatch .., _ | .noValue .., _ | .outputFailed .., _ => rfl

lemma Fault.renameAll_eq_relabelAll : ∀ {faults : List Fault},
    (∀ name ∈ Fault.allNames faults, f name = g name) →
    Fault.renameAll f faults = Fault.relabelAll (.ofNames g hg) faults
  | [], _ => rfl
  | _ :: _, h => by
    obtain ⟨hfirst, hrest⟩ := List.forall_mem_append.mp h
    rw [Fault.renameAll, Fault.rename_eq_relabel hfirst, Fault.renameAll_eq_relabelAll hrest]
    rfl

end

mutual

/-- Where a fault does not change, the names that it mentions stay. -/
lemma Fault.fixed_of_relabel_eq : ∀ {fault : Fault}, fault.relabel (.ofNames g hg) = fault →
    ∀ name ∈ fault.names, g name = name
  | .typeErrors faults, h, name, hname =>
    Fault.fixed_of_relabelAll_eq (Fault.typeErrors.inj h) name hname
  | .constNotLiteral _ _, h, name, hname | .missingTypeOrValue _ _, h, name, hname
  | .undefinedName _ _, h, name, hname | .assignToConst _ _, h, name, hname
  | .duplicateDefinition _ _, h, name, hname | .undefinedVariable _ _, h, name, hname
  | .typeMismatch _ _ _ _, h, name, hname => by
    obtain rfl := List.mem_singleton.mp hname
    injection h
  | .illegalCharacter .., _, _, hname | .unterminatedComment .., _, _, hname
  | .unterminatedChar .., _, _, hname | .unexpectedToken .., _, _, hname
  | .invalidLiteral .., _, _, hname | .binaryMismatch .., _, _, hname
  | .unaryMismatch .., _, _, hname | .conditionNotBool .., _, _, hname
  | .unknownType .., _, _, hname | .loopControlOutsideLoop .., _, _, hname
  | .blockWithoutValue .., _, _, hname | .divisionByZero .., _, _, hname
  | .integerOverflow .., _, _, hname | .operandMismatch .., _, _, hname
  | .noValue .., _, _, hname | .outputFailed .., _, _, hname =>
    absurd hname List.not_mem_nil

lemma Fault.fixed_of_relabelAll_eq : ∀ {faults : List Fault},
    Fault.relabelAll (.ofNames g hg) faults = faults →
    ∀ name ∈ Fault.allNames faults, g name = name
  | [], _, _, hname => absurd hname List.not_mem_nil
  | _ :: _, h, name, hname => by
    obtain ⟨hfirst, hrest⟩ := List.cons.inj h
    rcases List.mem_append.mp hname with hname | hname
    · exact Fault.fixed_of_relabel_eq hfirst name hname
    · exact Fault.fixed_of_relabelAll_eq hrest name hname

end

/-- A fault that stays where some names stay mentions only these names. -/
lemma Fault.mem_names_of_fixed {fault : Fault} {names : List String}
    (h : ∀ (g : String → String) (hg : Function.Injective g), (∀ name ∈ names, g name = name) →
      fault.relabel (.ofNames g hg) = fault) :
    ∀ name ∈ fault.names, name ∈ names := by
  intro name hname
  by_contra hother
  -- Another name that is not among the names either, to exchange this one for.
  obtain ⟨fresh, hfresh⟩ := Infinite.exists_notMem_finset (insert name names.toFinset)
  rw [Finset.mem_insert, List.mem_toFinset, not_or] at hfresh
  have hfixed : ∀ known ∈ names, Equiv.swap name fresh known = known := by
    intro known hknown
    apply Equiv.swap_apply_of_ne_of_ne
    · rintro rfl
      exact hother hknown
    · rintro rfl
      exact hfresh.2 hknown
  have hsame := h (Equiv.swap name fresh) (Equiv.swap name fresh).injective hfixed
  have hstays := Fault.fixed_of_relabel_eq hsame name hname
  rw [Equiv.swap_apply_left] at hstays
  exact hfresh.1 hstays

/-! ## Names that are not special -/

/-- Names for some names, different ones for different ones, can be extended to all names. -/
lemma Relabelling.exists_extension {names : List String} (h : Set.InjOn f {name | name ∈ names}) :
    ∃ g, Function.Injective g ∧ ∀ name ∈ names, f name = g name := by
  have hfinite : Cardinal.mk {name | name ∈ names} < Cardinal.mk String :=
    (Set.Finite.lt_aleph0 names.finite_toSet).trans_le (Cardinal.aleph0_le_mk String)
  obtain ⟨g, hg⟩ := Cardinal.extend_function_of_lt ⟨_, h.injective⟩ hfinite ⟨Equiv.refl String⟩
  exact ⟨g, g.injective, fun name hname => (hg ⟨name, hname⟩).symm⟩

namespace Program

variable {program : Program}

lemma names_of_check {fault : Fault} (h : program.check = .error fault) :
    ∀ name ∈ fault.names, name ∈ program.names := by
  apply Fault.mem_names_of_fixed
  intro g hg hfixed
  have hcheck := program.check_relabel (.ofNames g hg)
  rw [relabel_of_fixed hfixed, h] at hcheck
  exact (Except.error.inj hcheck).symm

lemma names_of_run {σ : Type} [Sink σ] {bound : Nat} {out : σ} {fault : Fault}
    (h : (program.run bound out).1 = .failed fault) :
    ∀ name ∈ fault.names, name ∈ program.names := by
  apply Fault.mem_names_of_fixed
  intro g hg hfixed
  have hrun := congrArg Prod.fst (program.run_relabel (.ofNames g hg) bound out)
  rw [relabel_of_fixed hfixed, h] at hrun
  exact (Outcome.failed.inj hrun).symm

/-- Names are not special.  A program with other names for its constants and variables, different
ones for different names, is checked with the same result, in which the faults mention the new
names, and a run of it writes the same and ends in the same way, again up to the names in its
fault.  The types need not be right, and this holds for every sink and every bound on the
repetitions of loops. -/
theorem rename_alike (program : Program) (f : String → String)
    (hf : Set.InjOn f {name | name ∈ program.names}) :
    (program.rename f).check = program.check.mapError (Fault.rename f) ∧
      ∀ {σ : Type} [Sink σ] (bound : Nat) (out : σ), (program.rename f).run bound out =
        ((program.run bound out).1.mapFault (Fault.rename f), (program.run bound out).2) := by
  obtain ⟨g, hg, hsame⟩ := Relabelling.exists_extension hf
  have hprogram : program.rename f = program.relabel (.ofNames g hg) := rename_eq_relabel hsame
  rw [hprogram]
  constructor
  · rw [program.check_relabel]
    cases hcheck : program.check with
    | ok _ => rfl
    | error fault =>
      have hfault : fault.rename f = fault.relabel (.ofNames g hg) :=
        Fault.rename_eq_relabel fun name hname => hsame name (names_of_check hcheck name hname)
      exact congrArg Except.error hfault.symm
  · intro σ _ bound out
    rw [program.run_relabel]
    cases hrun : (program.run bound out).1 with
    | done _ | unfinished => rfl
    | failed fault =>
      have hfault : fault.rename f = fault.relabel (.ofNames g hg) :=
        Fault.rename_eq_relabel fun name hname => hsame name (names_of_run hrun name hname)
      exact congrArg (fun fault => (Outcome.failed fault, _)) hfault.symm

/-- A constant that is shadowed in a block and assigned to behind it, and that is then named like
its type.  The new names are different on the names of the program only. -/
theorem rename_alike_shadowed :
    ∃ (program : Program) (f : String → String),
      Set.InjOn f {name | name ∈ program.names} ∧ f "c" = f "d" ∧
        (program.rename f).check = .error (.typeErrors [.assignToConst "int" 3]) ∧
        ((program.rename f).run 0 Buffer.unbounded).1 = .failed (.assignToConst "int" 3) := by
  let program : Program := ⟨[.constDef ⟨"a", 1⟩ (some ⟨"int", 1⟩) (.literal (.int 1 1)) 1,
    .varDef ⟨"b", 2⟩ none (.block [.constDef ⟨"a", 2⟩ none (.literal (.int 2 2)) 2,
      .expr (.name ⟨"a", 2⟩)] 2) 2,
    .assign ⟨"a", 3⟩ (.name ⟨"b", 3⟩) 3]⟩
  let f : String → String := fun name => if name = "a" then "int" else "a"
  have hf : Set.InjOn f {name | name ∈ program.names} := by
    have hnames : ∀ x ∈ program.names, ∀ y ∈ program.names, f x = f y → x = y := by decide
    exact fun x hx y hy => hnames x hx y hy
  have hcheck : program.check = .error (.typeErrors [.assignToConst "a" 3]) := by cbv
  have hrun : (program.run 0 Buffer.unbounded).1 = .failed (.assignToConst "a" 3) := by cbv
  obtain ⟨hchecked, hran⟩ := rename_alike program f hf
  refine ⟨program, f, hf, rfl, ?_, ?_⟩
  · rw [hchecked, hcheck]
    rfl
  · rw [hran, hrun]
    rfl

end Program

end BlockLang
