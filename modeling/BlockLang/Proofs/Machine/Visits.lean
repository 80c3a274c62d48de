import BlockLang.Proofs.Machine.TypeSafety
import BlockLang.Proofs.Typing.Decision
import Mathlib.Logic.Relation

/-!
# The moments of a run

The checker and the machine walk over the same tree, the one once and the other as often as the
loops ask for.  A `Site` is a moment of a run at which something is about to be carried out,
together with the checker as it was when it came to the same place.  `Enters` says which sites
follow directly from a site: its parts, as far as the values in front of them let them be reached,
and the same loop again behind a repetition.  `Visits` is what follows from the beginning of a
program in any number of such steps.

All sites of a program that the typing rules admit are alike in this: what is carried out has a
type in a context that describes both the symbols of the checker and the frames of the machine
(`Site.Typed`, kept by `Enters`).  Hence at each of them the frames hold values of the types that
the checker has recorded (`TypeChecker.Agrees`), and an expression that has a value there has one
of the type that the checker finds for it.
-/

namespace BlockLang

/-! ## Checkers and frames -/

/-- The frames bind the names that the checker knows, frame by frame, each as a constant or a
variable as the checker says and to a value of the type that the checker has recorded. -/
def TypeChecker.Agrees (c : TypeChecker) (env : Environment) : Prop :=
  ∃ scopes frames, c.symbols.HasLayers scopes ∧ env.Stacked frames ∧
    List.Forall₂ (fun scope frame => ∀ name,
      (scope.get? name).map (fun symbol : Symbol => (symbol.kind, symbol.ty)) =
        (frame.get? name).map fun binding : Binding => (binding.kind, some binding.value.ty))
      scopes frames

/-- Symbols and bindings that are described by the same declarations agree. -/
lemma Context.DescribesScope.agree {scope : List Declaration} {symbols : NameMap Symbol}
    {bindings : NameMap Binding} (hsymbols : DescribesScope Symbol.view scope symbols)
    (hbindings : DescribesScope Binding.view scope bindings) (name : String) :
    (symbols.get? name).map (fun symbol => (symbol.kind, symbol.ty)) =
      (bindings.get? name).map fun binding => (binding.kind, some binding.value.ty) := by
  cases hname : bindings.get? name with
  | none =>
    have hnone := (hsymbols.get?_eq_none_iff name).mpr ((hbindings.get?_eq_none_iff name).mp hname)
    rw [hnone]
    rfl
  | some binding =>
    obtain ⟨d, hd, rfl⟩ := hbindings.known name binding hname
    obtain ⟨binding', hbinding', hview⟩ := hbindings.declared d hd
    obtain ⟨symbol, hsymbol, hsymbolView⟩ := hsymbols.declared d hd
    obtain rfl : binding' = binding := Option.some.inj (hbinding'.symm.trans hname)
    obtain ⟨hkind, hty⟩ := Binding.view_eq_some_iff.mp hview
    obtain ⟨hsymbolKind, hsymbolTy⟩ := Symbol.view_eq_some_iff.mp hsymbolView
    simp only [hsymbol, Option.map_some, hsymbolKind, hsymbolTy, hkind, hty]

lemma TypeChecker.Knows.agrees {c : TypeChecker} {Γ : Context} {inLoop : Bool}
    {env : Environment} (hc : c.Knows Γ inLoop) (henv : Γ.Types env) : c.Agrees env := by
  obtain ⟨scopes, hscopes, hsymbols⟩ := hc.symbols
  obtain ⟨frames, hframes, hbindings⟩ := henv
  refine ⟨scopes, frames, hscopes, hframes, ?_⟩
  clear hscopes hframes hc
  induction hsymbols generalizing frames with
  | nil =>
    cases hbindings
    exact .nil
  | cons hscope _ ih =>
    obtain _ | ⟨hframe, hrest⟩ := hbindings
    exact .cons (fun name => hscope.agree hframe name) (ih _ hrest)

namespace TypeChecker

/-- The checker behind the test of an `if` or a `while`. -/
def behindTest (construct : String) (test : Expr) (line : Nat) (c : TypeChecker) : TypeChecker :=
  (StateT.run (do
    let ty ← checkExpr test
    condition construct ty line) c).2

/-- The checker behind the opening brace of a block. -/
def opened (c : TypeChecker) : TypeChecker :=
  { c with symbols := c.symbols.enter }

/-- The checker behind the statements of a block and its closing brace. -/
def behindBlock (body : List Stmt) (c : TypeChecker) : TypeChecker :=
  ((inScope (checkStmts body)).run c).2

variable {c : TypeChecker} {Γ Δ : Context} {inLoop : Bool}

lemma Knows.behindExpr {e : Expr} {ty : Ty} (hc : c.Knows Γ inLoop) (typed : HasType Γ e ty) :
    ((checkExpr e).run c).1 = some ty ∧ ((checkExpr e).run c).2.Knows Γ inLoop := by
  obtain ⟨c', hs, hc'⟩ := checkExpr_passes typed hc
  rw [hs.run_eq]
  exact ⟨rfl, hc'⟩

lemma Knows.behindStmt {s : Stmt} (hc : c.Knows Γ inLoop) (admitted : Admits Γ inLoop s Δ) :
    ((checkStmt s).run c).2.Knows Δ inLoop := by
  obtain ⟨_, c', hs, hc'⟩ := checkStmt_passes admitted hc
  rwa [hs.run_eq]

lemma Knows.behindTest {construct : String} {test : Expr} {line : Nat} (hc : c.Knows Γ inLoop)
    (typed : HasType Γ test .bool) : (c.behindTest construct test line).Knows Γ inLoop := by
  obtain ⟨c', hs, hc'⟩ := checkExpr_passes typed hc
  rw [TypeChecker.behindTest, StateT.run_bind, hs.run_eq]
  exact hc'

lemma Knows.behindBlock {body : List Stmt} (hc : c.Knows Γ inLoop)
    (admitted : AdmitsAll ([] :: Γ) inLoop body Δ) : (c.behindBlock body).Knows Γ inLoop := by
  obtain ⟨_, c', hs, hc'⟩ := checkStmts_passes admitted hc.enter
  have hblock := silent_inScope.mpr ⟨c', hs, rfl⟩
  rw [TypeChecker.behindBlock, hblock.run_eq]
  exact hc'.leave admitted.tail_eq hc.ne_nil

end TypeChecker

/-! ## Sites -/

/-- What is carried out. -/
inductive Task
  | expr (e : Expr)
  | stmt (s : Stmt)
  | stmts (body : List Stmt)

/-- A moment of a run: what is carried out next, and the checker and the machine in front of it. -/
structure Site (σ : Type) where
  task : Task
  checker : TypeChecker
  machine : Machine σ

/-- The typing rules admit what is carried out. -/
def Task.Fits (Γ : Context) (inLoop : Bool) : Task → Prop
  | .expr e => ∃ ty, HasType Γ e ty
  | .stmt s => ∃ Δ, Admits Γ inLoop s Δ
  | .stmts body => ∃ Δ, AdmitsAll Γ inLoop body Δ

/-- What is carried out has a type in a context that describes the checker and the machine. -/
def Site.Typed {σ : Type} (site : Site σ) : Prop :=
  ∃ Γ inLoop, site.task.Fits Γ inLoop ∧ site.checker.Knows Γ inLoop ∧ Γ.Types site.machine.env

/-- Where a site is typed, the frames are as the checker has recorded them. -/
lemma Site.Typed.agrees {σ : Type} {site : Site σ} (h : site.Typed) :
    site.checker.Agrees site.machine.env := by
  obtain ⟨Γ, inLoop, _, hc, hm⟩ := h
  exact hc.agrees hm

/-- A machine in a new frame. -/
def Machine.opened {σ : Type} (m : Machine σ) : Machine σ :=
  ⟨m.env.enter, m.out⟩

section

variable {σ : Type} [Sink σ]

open TypeChecker Machine

/-- The sites that follow directly from a site. -/
inductive Enters (bound : Nat) : Site σ → Site σ → Prop
  | operand {op : UnaryOp} {operand : Expr} {line : Nat} {c : TypeChecker} {m : Machine σ} :
      Enters bound ⟨.expr (.unary op operand line), c, m⟩ ⟨.expr operand, c, m⟩
  | left {op : BinOp} {left right : Expr} {line : Nat} {c : TypeChecker} {m : Machine σ} :
      Enters bound ⟨.expr (.binary op left right line), c, m⟩ ⟨.expr left, c, m⟩
  | right {op : BinOp} {left right : Expr} {line : Nat} {c : TypeChecker} {m m' : Machine σ}
      {v : Value} (behindLeft : (eval bound left).run m = (.done v, m')) :
      Enters bound ⟨.expr (.binary op left right line), c, m⟩
        ⟨.expr right, ((checkExpr left).run c).2, m'⟩
  | block {body : List Stmt} {line : Nat} {c : TypeChecker} {m : Machine σ} :
      Enters bound ⟨.expr (.block body line), c, m⟩
        ⟨.stmts body, opened { c with loopDepth := 0 }, m.opened⟩
  | constDef {name : Ident} {ty : Option Ident} {value : Expr} {line : Nat} {c : TypeChecker}
      {m : Machine σ} :
      Enters bound ⟨.stmt (.constDef name ty value line), c, m⟩ ⟨.expr value, c, m⟩
  | varDef {name : Ident} {ty : Option Ident} {value : Expr} {line : Nat} {c : TypeChecker}
      {m : Machine σ} :
      Enters bound ⟨.stmt (.varDef name ty value line), c, m⟩ ⟨.expr value, c, m⟩
  | assign {target : Ident} {value : Expr} {line : Nat} {c : TypeChecker} {m : Machine σ} :
      Enters bound ⟨.stmt (.assign target value line), c, m⟩ ⟨.expr value, c, m⟩
  | print {value : Expr} {line : Nat} {c : TypeChecker} {m : Machine σ} :
      Enters bound ⟨.stmt (.print value line), c, m⟩ ⟨.expr value, c, m⟩
  | expr {value : Expr} {c : TypeChecker} {m : Machine σ} :
      Enters bound ⟨.stmt (.expr value), c, m⟩ ⟨.expr value, c, m⟩
  | ifTest {test : Expr} {thenBlock elseBlock : List Stmt} {line : Nat} {c : TypeChecker}
      {m : Machine σ} :
      Enters bound ⟨.stmt (.ifElse test thenBlock elseBlock line), c, m⟩ ⟨.expr test, c, m⟩
  | thenBlock {test : Expr} {thenBlock elseBlock : List Stmt} {line : Nat} {c : TypeChecker}
      {m m' : Machine σ} (holds : (eval bound test).run m = (.done (.bool true), m')) :
      Enters bound ⟨.stmt (.ifElse test thenBlock elseBlock line), c, m⟩
        ⟨.stmts thenBlock, (c.behindTest "if" test line).opened, m'.opened⟩
  | elseBlock {test : Expr} {thenBlock elseBlock : List Stmt} {line : Nat} {c : TypeChecker}
      {m m' : Machine σ} (fails : (eval bound test).run m = (.done (.bool false), m')) :
      Enters bound ⟨.stmt (.ifElse test thenBlock elseBlock line), c, m⟩
        ⟨.stmts elseBlock, ((c.behindTest "if" test line).behindBlock thenBlock).opened, m'.opened⟩
  | whileTest {test : Expr} {body : List Stmt} {line : Nat} {c : TypeChecker} {m : Machine σ} :
      Enters bound ⟨.stmt (.whileLoop test body line), c, m⟩ ⟨.expr test, c, m⟩
  | whileBody {test : Expr} {body : List Stmt} {line : Nat} {c c' : TypeChecker}
      {m m' : Machine σ} (holds : (eval bound test).run m = (.done (.bool true), m'))
      (behindTest : c' = c.behindTest "while" test line) :
      Enters bound ⟨.stmt (.whileLoop test body line), c, m⟩
        ⟨.stmts body, opened { c' with loopDepth := c'.loopDepth + 1 }, m'.opened⟩
  /-- The loop again, behind one repetition. -/
  | whileAgain {test : Expr} {body : List Stmt} {line : Nat} {c : TypeChecker}
      {m m' m'' : Machine σ} {flow : Flow}
      (holds : (eval bound test).run m = (.done (.bool true), m'))
      (behindBody : (inFrame (execAll bound body)).run m' = (.done flow, m''))
      (again : flow ≠ .broken) :
      Enters bound ⟨.stmt (.whileLoop test body line), c, m⟩
        ⟨.stmt (.whileLoop test body line), c, m''⟩
  | first {first : Stmt} {rest : List Stmt} {c : TypeChecker} {m : Machine σ} :
      Enters bound ⟨.stmts (first :: rest), c, m⟩ ⟨.stmt first, c, m⟩
  | rest {first : Stmt} {rest : List Stmt} {c : TypeChecker} {m m' : Machine σ}
      (behindFirst : (exec bound first).run m = (.done .normal, m')) :
      Enters bound ⟨.stmts (first :: rest), c, m⟩ ⟨.stmts rest, ((checkStmt first).run c).2, m'⟩

/-- The sites of a run of a program that begins with the sink `out`. -/
def Program.Visits (bound : Nat) (program : Program) (out : σ) (site : Site σ) : Prop :=
  Relation.ReflTransGen (Enters bound) ⟨.stmts program.body, .new, ⟨.root, out⟩⟩ site

/-! ## Every site is typed -/

/-- What follows directly from a typed site is typed. -/
lemma Enters.typed {bound : Nat} {site site' : Site σ} (h : Enters bound site site')
    (hsite : site.Typed) : site'.Typed := by
  obtain ⟨Γ, inLoop, fits, hc, hm⟩ := hsite
  cases h with
  | operand =>
    have ⟨_, .unary typed _⟩ := fits
    exact ⟨Γ, inLoop, ⟨_, typed⟩, hc, hm⟩
  | left =>
    have ⟨_, .binary leftTyped _ _⟩ := fits
    exact ⟨Γ, inLoop, ⟨_, leftTyped⟩, hc, hm⟩
  | right behindLeft =>
    have ⟨_, .binary leftTyped rightTyped _⟩ := fits
    have hm' := ((eval_yields bound leftTyped hm).of_done behindLeft).2
    exact ⟨Γ, inLoop, ⟨_, rightTyped⟩, (hc.behindExpr leftTyped).2, hm'⟩
  | block =>
    have ⟨_, .block typed⟩ := fits
    exact ⟨[] :: Γ, false, typed.admitsAll, hc.outsideLoops.enter, hm.enter⟩
  | constDef =>
    have ⟨_, .constDef typed _ _⟩ := fits
    exact ⟨Γ, inLoop, ⟨_, typed⟩, hc, hm⟩
  | varDef =>
    have ⟨_, .varDef typed _ _⟩ := fits
    exact ⟨Γ, inLoop, ⟨_, typed⟩, hc, hm⟩
  | assign =>
    have ⟨_, .assign typed _ _⟩ := fits
    exact ⟨Γ, inLoop, ⟨_, typed⟩, hc, hm⟩
  | print =>
    have ⟨_, .print typed⟩ := fits
    exact ⟨Γ, inLoop, ⟨_, typed⟩, hc, hm⟩
  | expr =>
    have ⟨_, .expr typed⟩ := fits
    exact ⟨Γ, inLoop, ⟨_, typed⟩, hc, hm⟩
  | ifTest =>
    have ⟨_, .ifElse typed _ _⟩ := fits
    exact ⟨Γ, inLoop, ⟨_, typed⟩, hc, hm⟩
  | thenBlock holds =>
    have ⟨_, .ifElse typed thenAdmitted _⟩ := fits
    have hm' := ((eval_yields bound typed hm).of_done holds).2
    exact ⟨[] :: Γ, inLoop, ⟨_, thenAdmitted⟩, (hc.behindTest typed).enter, hm'.enter⟩
  | elseBlock fails =>
    have ⟨_, .ifElse typed thenAdmitted elseAdmitted⟩ := fits
    have hm' := ((eval_yields bound typed hm).of_done fails).2
    exact ⟨[] :: Γ, inLoop, ⟨_, elseAdmitted⟩,
      ((hc.behindTest typed).behindBlock thenAdmitted).enter, hm'.enter⟩
  | whileTest =>
    have ⟨_, .whileLoop typed _⟩ := fits
    exact ⟨Γ, inLoop, ⟨_, typed⟩, hc, hm⟩
  | whileBody holds behindTest =>
    have ⟨_, .whileLoop typed admitted⟩ := fits
    have hm' := ((eval_yields bound typed hm).of_done holds).2
    subst behindTest
    exact ⟨[] :: Γ, true, ⟨_, admitted⟩, (hc.behindTest typed).insideLoop.enter, hm'.enter⟩
  | whileAgain holds behindBody _ =>
    have ⟨_, .whileLoop typed admitted⟩ := fits
    have hm' := ((eval_yields bound typed hm).of_done holds).2
    have hbody := yields_inTypedFrame hm' (execAll_yields bound admitted hm'.enter)
    exact ⟨Γ, inLoop, ⟨_, .whileLoop typed admitted⟩, hc, (hbody.of_done behindBody).2⟩
  | first =>
    have ⟨_, .cons admitted _⟩ := fits
    exact ⟨Γ, inLoop, ⟨_, admitted⟩, hc, hm⟩
  | rest behindFirst =>
    have ⟨_, .cons admitted restAdmitted⟩ := fits
    have hm' := ((exec_yields bound admitted hm).of_done behindFirst).2
    exact ⟨_, inLoop, ⟨_, restAdmitted⟩, hc.behindStmt admitted, hm'⟩

/-- Every site of a well-typed program is typed. -/
lemma Program.Visits.typed {bound : Nat} {program : Program} {out : σ} {site : Site σ}
    (wellTyped : program.WellTyped) (h : program.Visits bound out site) : site.Typed := by
  induction h with
  | refl =>
    obtain ⟨Δ, admitted⟩ := wellTyped
    exact ⟨[[]], false, ⟨Δ, admitted⟩, knows_new, Context.types_root⟩
  | tail _ step ih => exact step.typed ih

/-- Where a site is typed, a value has the type that the checker finds for the expression, and the
frames behind the expression are as the checker behind it has recorded them. -/
lemma Site.Typed.value_ty {site : Site σ} (h : site.Typed) {e : Expr} (he : site.task = .expr e)
    {bound : Nat} {v : Value} {m : Machine σ}
    (hrun : (eval bound e).run site.machine = (.done v, m)) :
    ((checkExpr e).run site.checker).1 = some v.ty ∧
      ((checkExpr e).run site.checker).2.Agrees m.env := by
  obtain ⟨Γ, inLoop, fits, hc, hm⟩ := h
  rw [he] at fits
  obtain ⟨ty, typed⟩ := fits
  obtain ⟨rfl, hm'⟩ := (eval_yields bound typed hm).of_done hrun
  obtain ⟨hanswer, hbehind⟩ := hc.behindExpr typed
  exact ⟨hanswer, hbehind.agrees hm'⟩

/-! ## The end of a run -/

/-- A well-typed program ends, if at all, without a fault or with a tolerable one. -/
lemma Program.run_of_wellTyped {program : Program} (wellTyped : program.WellTyped) (bound : Nat)
    (out : σ) :
    (program.run bound out).1 = .done () ∨
      (∃ fault, (program.run bound out).1 = .failed fault ∧ fault.Tolerable) ∨
      (program.run bound out).1 = .unfinished := by
  obtain ⟨Δ, admitted⟩ := wellTyped
  have hrun : Yields (Machine.run bound program) ⟨.root, out⟩ fun _ _ => True := by
    rw [Machine.run, yields_bind, yields_modify, yields_bind]
    refine (execAll_yields bound admitted (m := ⟨_, _⟩) Context.types_root).mono fun _ m _ => ?_
    exact (yields_output Sink.flush).mono fun _ _ _ => trivial
  unfold Yields at hrun
  rw [Program.run]
  generalize (Machine.run bound program).run ⟨.root, out⟩ = ending at hrun ⊢
  obtain ⟨outcome, m⟩ := ending
  cases outcome with
  | done value => exact .inl rfl
  | failed fault => exact .inr (.inl ⟨fault, rfl, hrun⟩)
  | unfinished => exact .inr (.inr rfl)

end

end BlockLang
