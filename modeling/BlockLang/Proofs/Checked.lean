import BlockLang.Proofs.Grammar.Parsing
import BlockLang.Proofs.Machine.Constants
import BlockLang.Proofs.Machine.LoopControl
import Mathlib

/-!
# Checked programs

What the check of a text is worth.  It decides the typing rules: of the programs that can be
written it accepts those that the rules admit, and no others (`Source.check_decides_typing`).  And
what it accepts is safe: a run ends, if at all, without a fault or with one that no check of types
can exclude, and all the way its values are of the types that the checker has found and recorded
(`Source.run_safely_if_checked`).  No `break` and no `continue` gets further than to the nearest
loop, so that a run that is done has carried out the whole program
(`Source.loop_control_confined`).  And a constant keeps the value that it is written with for as
long as its frame is there (`Source.constants_kept`).
-/

namespace BlockLang.Source

variable {source : String} {program : Program}

lemma check_eq_done_iff : check source = .done program ↔
    parse source = .done program ∧ program.check = .ok () := by
  rw [check]
  cases parse source with
  | done parsed =>
    simp only [Outcome.done_bind, Outcome.done.injEq]
    cases hcheck : parsed.check with
    | ok =>
      simp only [Outcome.ofExcept, Outcome.done_bind]
      constructor
      · intro h
        obtain rfl := Outcome.done.inj h
        exact ⟨rfl, hcheck⟩
      · rintro ⟨rfl, _⟩
        rfl
    | error fault =>
      simp only [Outcome.ofExcept, Outcome.failed_bind, reduceCtorEq, false_iff, not_and]
      rintro rfl
      simp [hcheck]
  | failed fault => simp
  | unfinished => simp

/-- A text whose check succeeds is the text of a well-typed program. -/
lemma wellTyped_of_check (h : check source = .done program) : program.WellTyped := by
  obtain ⟨hparse, hcheck⟩ := check_eq_done_iff.mp h
  exact (Program.check_eq_ok_iff (declared_of_parse hparse)).mp hcheck

/-- The checker decides the typing rules on all programs that can be written. -/
theorem check_decides_typing (h : parse source = .done program) :
    program.check = .ok () ↔ program.WellTyped :=
  Program.check_eq_ok_iff (declared_of_parse h)

/-- The rules at a program with a block expression, and at one that assigns a number to a
variable of type `bool`. -/
theorem check_decides_two :
    (⟨[.varDef ⟨"a", 1⟩ none (.block [.expr (.literal (.int 1 1))] 1) 1]⟩ : Program).WellTyped ∧
      ¬ (⟨[.varDecl ⟨"a", 1⟩ (some ⟨"bool", 1⟩) 1,
        .assign ⟨"a", 1⟩ (.literal (.int 1 1)) 1]⟩ : Program).WellTyped := by
  constructor
  · have hparse : parse "var a = \x7b 1; \x7d;" =
        .done ⟨[.varDef ⟨"a", 1⟩ none (.block [.expr (.literal (.int 1 1))] 1) 1]⟩ := by cbv
    exact (check_decides_typing hparse).mp (by cbv)
  · intro wellTyped
    have hparse : parse "var a bool; a = 1;" = .done ⟨[.varDecl ⟨"a", 1⟩ (some ⟨"bool", 1⟩) 1,
        .assign ⟨"a", 1⟩ (.literal (.int 1 1)) 1]⟩ := by cbv
    have hcheck := (check_decides_typing hparse).mpr wellTyped
    cbv at hcheck
    cases hcheck

/-- A run of a checked program ends, if at all, without a fault or with a division by zero, an
integer that does not fit or an output that is refused.  Wherever it is, the frames hold values of
the types that the checker has recorded there, and an expression that has a value has one of the
type that the checker finds for it. -/
theorem run_safely_if_checked (h : check source = .done program) {σ : Type} [Sink σ] (bound : Nat)
    (out : σ) :
    ((program.run bound out).1 = .done () ∨
      (∃ fault, (program.run bound out).1 = .failed fault ∧ fault.Tolerable) ∨
      (program.run bound out).1 = .unfinished) ∧
    ∀ site : Site σ, program.Visits bound out site →
      site.checker.Agrees site.machine.env ∧
      ∀ (e : Expr) (v : Value) (m : Machine σ), site.task = .expr e →
        (Machine.eval bound e).run site.machine = (.done v, m) →
        ((TypeChecker.checkExpr e).run site.checker).1 = some v.ty ∧
          ((TypeChecker.checkExpr e).run site.checker).2.Agrees m.env := by
  have wellTyped := wellTyped_of_check h
  refine ⟨Program.run_of_wellTyped wellTyped bound out, fun site hsite => ?_⟩
  have hsited := hsite.typed wellTyped
  exact ⟨hsited.agrees, fun e v m he hrun => hsited.value_ty he hrun⟩

/-- A checked program that divides by zero ends with a fault that no check of types excludes. -/
theorem run_safely_dividing :
    ∃ program : Program, check "print 1 / 0;" = .done program ∧
      (∃ fault, (program.run 0 Buffer.unbounded).1 = .failed fault ∧ fault.Tolerable) ∧
      ∀ site : Site Buffer, program.Visits 0 Buffer.unbounded site →
        site.checker.Agrees site.machine.env := by
  have hcheck : check "print 1 / 0;" = .done ⟨[.print (.binary .div (.literal (.int 1 1))
      (.literal (.int 0 1)) 1) 1]⟩ := by cbv
  obtain ⟨hend, hsites⟩ := run_safely_if_checked hcheck 0 Buffer.unbounded
  refine ⟨_, hcheck, ?_, fun site hsite => (hsites site hsite).1⟩
  obtain hdone | hfailed | hunfinished := hend
  · cbv at hdone
    cases hdone
  · exact hfailed
  · cbv at hunfinished
    cases hunfinished

/-- The statements of a checked program end normally, and a run that is done has carried out each
of them to its end, in order.  Where a piece of the program ends with a `break` or a `continue`,
the nearest loop around it takes that: its body ends in the same way, with no further output, and
the loop is done or goes on with its test.  Nothing of the kind leaves a block expression, and no
expression is without a value. -/
theorem loop_control_confined (h : check source = .done program) {σ : Type} [Sink σ] (bound : Nat)
    (out : σ) :
    (∀ (flow : Flow) (m : Machine σ),
      (Machine.execAll bound program.body).run ⟨.root, out⟩ = (.done flow, m) → flow = .normal) ∧
    ((program.run bound out).1 = .done () → ∃ m : Machine σ,
      Machine.Completes bound program.body ⟨.root, out⟩ m ∧
        Sink.flush m.out = (none, (program.run bound out).2)) ∧
    ∀ site : Site σ, program.Visits bound out site →
      (∀ (flow : Flow) (m : Machine σ), site.Ends bound flow m → flow ≠ .normal →
        ∃ r : Repetition σ, r.Begins bound program out ∧
          Relation.ReflTransGen (Passes bound) r.inside site ∧
          ∃ m' : Machine σ, r.inside.Ends bound flow m' ∧ m'.out = m.out ∧
            ∀ steps : Nat, (r.repeated bound (steps + 1)).run r.before =
              if flow = .broken then (.done (), m'.closed)
              else (r.repeated bound steps).run m'.closed) ∧
      (∀ (body : List Stmt) (line : Nat), site.task = .expr (.block body line) →
        ∀ inner : Site σ, Relation.ReflTransGen (Passes bound) (site.behindBrace body) inner →
          ∀ (flow : Flow) (m : Machine σ), inner.Ends bound flow m → flow = .normal) ∧
      ∀ (e : Expr) (construct : String) (line : Nat) (m : Machine σ), site.task = .expr e →
        (Machine.eval bound e).run site.machine ≠ (.failed (.noValue construct line), m) := by
  have wellTyped := wellTyped_of_check h
  have hstart : program.Visits bound out ⟨.stmts program.body, .new, ⟨.root, out⟩⟩ := .refl
  have root := hstart.typed wellTyped
  have htop : ∀ (flow : Flow) (m : Machine σ),
      (Machine.execAll bound program.body).run ⟨.root, out⟩ = (.done flow, m) → flow = .normal :=
    fun flow m hrun => root.flow_eq_normal rfl hrun
  refine ⟨htop, fun hdone => ?_, fun site visited => ?_⟩
  · obtain ⟨flow, m, hrun, hflush⟩ := Program.execAll_of_run hdone
    obtain rfl := htop flow m hrun
    exact ⟨m, Machine.completes_of_execAll hrun, hflush⟩
  · have typed := visited.typed wellTyped
    refine ⟨fun flow m hends hflow => ?_, fun body line hblock inner path flow m hends => ?_,
      fun e construct line m he hrun => ?_⟩
    · obtain ⟨r, hr, path⟩ := visited.confined wellTyped hends.hasFlow
        (fun _ _ _ => hends.ne_whileLoop hflow) fun hdepth =>
          hflow (typed.flow_eq_normal hdepth hends)
      obtain ⟨m', hbody, hout⟩ := hends.handOn hflow path
      exact ⟨r, hr, path, m', hbody, hout, Repetition.repeat_of_ends hr.holds hbody⟩
    · have enters := site.enters_behindBrace bound hblock
      exact (enters.typed typed).flow_eq_normal_of_passes rfl path hends
    · exact typed.value_exists he hrun

/-- A checked program that leaves a loop carries out the statement behind it, and the `break` is
taken by a repetition of the loop. -/
theorem loop_control_breaking :
    ∃ program : Program, check "while true \x7b break; \x7d print 1;" = .done program ∧
      (program.run 2 Buffer.unbounded).1 = .done () ∧
      (∃ m, Machine.Completes 2 program.body ⟨.root, Buffer.unbounded⟩ m) ∧
      ∀ (site : Site Buffer) (line : Nat), program.Visits 2 Buffer.unbounded site →
        site.task = .stmt (.breakLoop line) →
        ∃ r : Repetition Buffer, r.Begins 2 program Buffer.unbounded ∧
          ∃ m, (r.repeated 2 1).run r.before = (.done (), m) := by
  have hcheck : check "while true \x7b break; \x7d print 1;" =
      .done ⟨[.whileLoop (.literal (.bool true 1)) [.breakLoop 1] 1,
        .print (.literal (.int 1 1)) 1]⟩ := by cbv
  obtain ⟨-, hdone, hsites⟩ := loop_control_confined hcheck 2 Buffer.unbounded
  have hrun : (Program.run 2 ⟨[.whileLoop (.literal (.bool true 1)) [.breakLoop 1] 1,
      .print (.literal (.int 1 1)) 1]⟩ Buffer.unbounded).1 = .done () := by cbv
  obtain ⟨m, hcompletes, -⟩ := hdone hrun
  refine ⟨_, hcheck, hrun, ⟨m, hcompletes⟩, fun site line visited hbreak => ?_⟩
  have hends : site.Ends 2 .broken site.machine := by
    rw [Site.Ends, hbreak]
    rfl
  obtain ⟨r, hr, -, m', -, -, hrepeated⟩ := (hsites site visited).1 .broken _ hends (by decide)
  exact ⟨r, hr, m'.closed, hrepeated 0⟩

/-- A definition of a constant that is begun in the course of a run of a checked program binds the
constant, in the frame that is then the innermost one, to the literal that is written there.
However the run goes on, and as long as that frame is there, the constant is bound to it. -/
theorem constants_kept (h : check source = .done program) {σ : Type} [Sink σ] (bound : Nat)
    (out : σ) {past later : List Event} {name : Ident} {ty : Option Ident} {value : Expr}
    {line : Nat}
    (begun : program.history bound out = past ++ .begins (.constDef name ty value line) :: later) :
    ∃ literal behind, value = .literal literal ∧
      later = .define name.name .const (.ofLiteral literal) :: behind ∧
      ∀ (m m' : Machine σ), m = Machine.replay past ⟨.root, out⟩ →
        m' = m.after (.define name.name .const (.ofLiteral literal)) →
        ∀ between after, behind = between ++ after → Machine.Live m.env.current m' between →
          (Machine.replay between m').env.bound? m.env.current name.name =
            some ⟨.const, .ofLiteral literal⟩ := by
  have spelled := spelled_of_parse (check_eq_done_iff.mp h).1
  have orderly := Program.history_orderly (wellTyped_of_check h) spelled bound out
  rw [begun] at orderly
  obtain ⟨literal, behind, rfl, rfl, fresh, rest⟩ := orderly.behind.of_begins
  refine ⟨literal, behind, rfl, rfl, ?_⟩
  rintro m m' rfl rfl between after rfl live
  refine rest.keeps_const_along ?_ live
  exact Environment.bound?_define fresh.exists_frame _ _ _

/-- Where a block defines another constant of the same name, the outer one has its value again
behind the block, up to the end of the run. -/
theorem constants_kept_shadowed :
    ∃ program : Program, check "const a = 1; print \x7b const a = 2; a; \x7d;" = .done program ∧
      ∃ past behind : List Event, ∃ m : Machine Buffer,
        program.history 0 Buffer.unbounded = past ++ behind ∧
        m = Machine.replay past ⟨.root, Buffer.unbounded⟩ ∧
        (Machine.replay behind m).env.bound? 0 "a" = some ⟨.const, .int 1⟩ := by
  have hcheck : check "const a = 1; print \x7b const a = 2; a; \x7d;" =
      .done ⟨[.constDef ⟨"a", 1⟩ none (.literal (.int 1 1)) 1,
        .print (.block [.constDef ⟨"a", 1⟩ none (.literal (.int 2 1)) 1,
          .expr (.name ⟨"a", 1⟩)] 1) 1]⟩ := by cbv
  have begun : Program.history 0 ⟨[.constDef ⟨"a", 1⟩ none (.literal (.int 1 1)) 1,
      .print (.block [.constDef ⟨"a", 1⟩ none (.literal (.int 2 1)) 1,
        .expr (.name ⟨"a", 1⟩)] 1) 1]⟩ Buffer.unbounded =
      [] ++ .begins (.constDef ⟨"a", 1⟩ none (.literal (.int 1 1)) 1) :: _ := rfl
  obtain ⟨literal, behind, hvalue, hlater, hkept⟩ :=
    constants_kept hcheck 0 Buffer.unbounded begun
  cases hvalue
  obtain rfl := (List.cons.inj hlater).2
  refine ⟨_, hcheck, [_, _], _, _, begun, rfl, ?_⟩
  refine hkept _ _ rfl rfl _ [] (List.append_nil _).symm ?_
  cbv

end BlockLang.Source
