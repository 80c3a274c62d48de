import BlockLang.Proofs.Checked
import Mathlib

/-!
# Types beside initial values

A definition with an initial value may declare a type as well.  In a checked program the declared
type is the type of the value, so that nothing is lost without it: the program is still accepted,
and it runs as before, whichever of these declarations are taken out
(`Source.annotations_erasable`).

`Program.Sheds` relates a program to what is left of it.  Two facts carry the theorem.  By the
typing rules a name is known with the type of its value, whether or not a type is declared beside
it, so that all uses of the name keep their types (`HasType.shed` and its companions); and a run
never looks at a type that stands beside a value (`Machine.eval_shed` and its companions).
-/

namespace BlockLang

variable {ty ty' : Option Ident}

/-! ## Programs with fewer annotations -/

/-- The declared type is kept or taken out. -/
def Ident.Sheds (ty ty' : Option Ident) : Prop :=
  ty' = ty ∨ ty' = none

mutual

/-- Of the types that an expression declares beside initial values, at any depth, some are taken
out. -/
inductive Expr.Sheds : Expr → Expr → Prop
  | literal (value : Literal) : Expr.Sheds (.literal value) (.literal value)
  | name (ident : Ident) : Expr.Sheds (.name ident) (.name ident)
  | unary {op : UnaryOp} {operand operand' : Expr} {line : Nat} (h : Expr.Sheds operand operand') :
      Expr.Sheds (.unary op operand line) (.unary op operand' line)
  | binary {op : BinOp} {left left' right right' : Expr} {line : Nat}
      (hleft : Expr.Sheds left left') (hright : Expr.Sheds right right') :
      Expr.Sheds (.binary op left right line) (.binary op left' right' line)
  | block {body body' : List Stmt} {line : Nat} (h : Stmt.ShedsAll body body') :
      Expr.Sheds (.block body line) (.block body' line)

/-- Of the types that a statement declares beside initial values some are taken out.  A type
without a value beside it stays. -/
inductive Stmt.Sheds : Stmt → Stmt → Prop
  | constDef {name : Ident} {ty ty' : Option Ident} {value value' : Expr} {line : Nat}
      (hty : Ident.Sheds ty ty') (h : Expr.Sheds value value') :
      Stmt.Sheds (.constDef name ty value line) (.constDef name ty' value' line)
  | varDef {name : Ident} {ty ty' : Option Ident} {value value' : Expr} {line : Nat}
      (hty : Ident.Sheds ty ty') (h : Expr.Sheds value value') :
      Stmt.Sheds (.varDef name ty value line) (.varDef name ty' value' line)
  | varDecl (name : Ident) (ty : Option Ident) (line : Nat) :
      Stmt.Sheds (.varDecl name ty line) (.varDecl name ty line)
  | assign {target : Ident} {value value' : Expr} {line : Nat} (h : Expr.Sheds value value') :
      Stmt.Sheds (.assign target value line) (.assign target value' line)
  | print {value value' : Expr} {line : Nat} (h : Expr.Sheds value value') :
      Stmt.Sheds (.print value line) (.print value' line)
  | ifElse {test test' : Expr} {thenBlock thenBlock' elseBlock elseBlock' : List Stmt} {line : Nat}
      (htest : Expr.Sheds test test') (hthen : Stmt.ShedsAll thenBlock thenBlock')
      (helse : Stmt.ShedsAll elseBlock elseBlock') :
      Stmt.Sheds (.ifElse test thenBlock elseBlock line) (.ifElse test' thenBlock' elseBlock' line)
  | whileLoop {test test' : Expr} {body body' : List Stmt} {line : Nat}
      (htest : Expr.Sheds test test') (hbody : Stmt.ShedsAll body body') :
      Stmt.Sheds (.whileLoop test body line) (.whileLoop test' body' line)
  | breakLoop (line : Nat) : Stmt.Sheds (.breakLoop line) (.breakLoop line)
  | continueLoop (line : Nat) : Stmt.Sheds (.continueLoop line) (.continueLoop line)
  | expr {value value' : Expr} (h : Expr.Sheds value value') :
      Stmt.Sheds (.expr value) (.expr value')

inductive Stmt.ShedsAll : List Stmt → List Stmt → Prop
  | nil : Stmt.ShedsAll [] []
  | cons {first first' : Stmt} {rest rest' : List Stmt} (hfirst : Stmt.Sheds first first')
      (hrest : Stmt.ShedsAll rest rest') : Stmt.ShedsAll (first :: rest) (first' :: rest')

end

/-- Of the types that a program declares beside initial values some are taken out: any of them, at
any depth. -/
def Program.Sheds (program program' : Program) : Prop :=
  Stmt.ShedsAll program.body program'.body

/-! ## The typing rules -/

/-- A value keeps its type where no type is declared beside it. -/
lemma Ty.Annotates.shed {valueTy : Ty} (hty : Ident.Sheds ty ty') (h : valueTy.Annotates ty) :
    valueTy.Annotates ty' := by
  obtain rfl | rfl := hty
  · exact h
  · intro ident hident
    cases hident

mutual

theorem HasType.shed : ∀ {e e' : Expr} {Γ : Context} {ty : Ty}, e.Sheds e' → HasType Γ e ty →
    HasType Γ e' ty
  | .literal _, _, _, _, .literal _, typed => typed
  | .name _, _, _, _, .name _, typed => typed
  | .unary _ _ _, _, _, _, .unary h, .unary typed row => .unary (typed.shed h) row
  | .binary _ _ _ _, _, _, _, .binary hleft hright, .binary leftTyped rightTyped row =>
    .binary (leftTyped.shed hleft) (rightTyped.shed hright) row
  | .block _ _, _, _, _, .block h, .block typed => .block (typed.shed h)
termination_by structural e => e

theorem HasBodyType.shed : ∀ {body body' : List Stmt} {Γ : Context} {ty : Ty},
    Stmt.ShedsAll body body' → HasBodyType Γ body ty → HasBodyType Γ body' ty
  | [_], _, _, _, .cons (.expr h) .nil, .last typed => .last (typed.shed h)
  | _ :: _, _, _, _, .cons hfirst hrest, .behind admitted typed =>
    .behind (admitted.shed hfirst) (typed.shed hrest)
termination_by structural body => body

theorem Admits.shed : ∀ {s s' : Stmt} {Γ Δ : Context} {inLoop : Bool}, s.Sheds s' →
    Admits Γ inLoop s Δ → Admits Γ inLoop s' Δ
  | .constDef _ _ _ _, _, _, _, _, .constDef hty h, .constDef typed annotated defined =>
    .constDef (typed.shed h) (annotated.shed hty) defined
  | .varDef _ _ _ _, _, _, _, _, .varDef hty h, .varDef typed annotated defined =>
    .varDef (typed.shed h) (annotated.shed hty) defined
  | .varDecl _ _ _, _, _, _, _, .varDecl _ _ _, admitted => admitted
  | .assign _ _ _, _, _, _, _, .assign h, .assign typed known assignable =>
    .assign (typed.shed h) known assignable
  | .print _ _, _, _, _, _, .print h, .print typed => .print (typed.shed h)
  | .ifElse _ _ _ _, _, _, _, _, .ifElse htest hthen helse,
      .ifElse typed thenAdmitted elseAdmitted =>
    .ifElse (typed.shed htest) (thenAdmitted.shed hthen) (elseAdmitted.shed helse)
  | .whileLoop _ _ _, _, _, _, _, .whileLoop htest hbody, .whileLoop typed admitted =>
    .whileLoop (typed.shed htest) (admitted.shed hbody)
  | .breakLoop _, _, _, _, _, .breakLoop _, admitted => admitted
  | .continueLoop _, _, _, _, _, .continueLoop _, admitted => admitted
  | .expr _, _, _, _, _, .expr h, .expr typed => .expr (typed.shed h)
termination_by structural s => s

theorem AdmitsAll.shed : ∀ {body body' : List Stmt} {Γ Δ : Context} {inLoop : Bool},
    Stmt.ShedsAll body body' → AdmitsAll Γ inLoop body Δ → AdmitsAll Γ inLoop body' Δ
  | [], _, _, _, _, .nil, .nil => .nil
  | _ :: _, _, _, _, _, .cons hfirst hrest, .cons admitted restAdmitted =>
    .cons (admitted.shed hfirst) (restAdmitted.shed hrest)
termination_by structural body => body

end

lemma Program.WellTyped.shed {program program' : Program} (h : program.WellTyped)
    (shed : program.Sheds program') : program'.WellTyped := by
  obtain ⟨Δ, admitted⟩ := h
  exact ⟨Δ, admitted.shed shed⟩

/-! ## Runs -/

namespace Machine

variable {σ : Type} [Sink σ] {bound : Nat}

mutual

theorem eval_shed : ∀ {e e' : Expr}, e.Sheds e' →
    (eval bound e' : Running σ Value) = eval bound e
  | .literal _, _, .literal _ => rfl
  | .name _, _, .name _ => rfl
  | .unary _ _ _, _, .unary h => by rw [eval, eval, eval_shed h]
  | .binary _ _ _ _, _, .binary hleft hright => by
    rw [eval, eval, eval_shed hleft, eval_shed hright]
  | .block _ _, _, .block h => by rw [eval, eval, evalBody_shed _ h]
termination_by structural e => e

theorem evalBody_shed (line : Nat) : ∀ {body body' : List Stmt}, Stmt.ShedsAll body body' →
    (evalBody bound line body' : Running σ Value) = evalBody bound line body
  | [], _, .nil => rfl
  | [first], _, .cons hfirst .nil => by
    cases hfirst with
    | expr h => exact eval_shed h
    | _ => rfl
  | _ :: _ :: _, _, .cons hfirst (.cons hsecond hrest) => by
    rw [evalBody_cons_cons, evalBody_cons_cons, exec_shed hfirst,
      evalBody_shed line (.cons hsecond hrest)]
termination_by structural body => body

theorem exec_shed : ∀ {s s' : Stmt}, s.Sheds s' →
    (exec bound s' : Running σ Flow) = exec bound s
  | .constDef _ _ _ _, _, .constDef _ h => by rw [exec, exec, eval_shed h]
  | .varDef _ _ _ _, _, .varDef _ h => by rw [exec, exec, eval_shed h]
  | .varDecl _ _ _, _, .varDecl _ _ _ => rfl
  | .assign _ _ _, _, .assign h => by rw [exec, exec, eval_shed h]
  | .print _ _, _, .print h => by rw [exec, exec, eval_shed h]
  | .ifElse _ _ _ _, _, .ifElse htest hthen helse => by
    rw [exec, exec, eval_shed htest, execAll_shed hthen, execAll_shed helse]
  | .whileLoop _ _ _, _, .whileLoop htest hbody => by
    rw [exec, exec, eval_shed htest, execAll_shed hbody]
  | .breakLoop _, _, .breakLoop _ => rfl
  | .continueLoop _, _, .continueLoop _ => rfl
  | .expr _, _, .expr h => by rw [exec, exec, eval_shed h]
termination_by structural s => s

theorem execAll_shed : ∀ {body body' : List Stmt}, Stmt.ShedsAll body body' →
    (execAll bound body' : Running σ Flow) = execAll bound body
  | [], _, .nil => rfl
  | _ :: _, _, .cons hfirst hrest => by
    rw [execAll, execAll, exec_shed hfirst, execAll_shed hrest]
termination_by structural body => body

end

end Machine

/-- A run does not depend on types that are declared beside initial values, whether or not the
program is checked. -/
lemma Program.run_shed {program program' : Program} (shed : program.Sheds program') {σ : Type}
    [Sink σ] (bound : Nat) (out : σ) : program'.run bound out = program.run bound out := by
  rw [Program.run, Program.run, Machine.run, Machine.run, Machine.execAll_shed shed]

namespace Source

variable {source : String} {program program' : Program}

/-- Types beside initial values can be left out.  Whichever of them are taken out of a checked
program, it is still accepted, and on every sink and with every bound on the repetitions of loops a
run of it writes the same and ends in the same way. -/
theorem annotations_erasable (h : check source = .done program) (shed : program.Sheds program') :
    program'.check = .ok () ∧
      ∀ {σ : Type} [Sink σ] (bound : Nat) (out : σ),
        program'.run bound out = program.run bound out :=
  ⟨Program.check_of_wellTyped ((wellTyped_of_check h).shed shed),
    fun bound out => Program.run_shed shed bound out⟩

/-- A constant in a block expression loses its type, and the variable that the block is the value
of keeps its own. -/
theorem annotations_erasable_inner : ∃ program program' : Program,
    check "var a int = \x7b const b bool = true; if b \x7b \x7d 1; \x7d; print a;" = .done program ∧
      program' = ⟨[.varDef ⟨"a", 1⟩ (some ⟨"int", 1⟩) (.block [
          .constDef ⟨"b", 1⟩ none (.literal (.bool true 1)) 1,
          .ifElse (.name ⟨"b", 1⟩) [] [] 1, .expr (.literal (.int 1 1))] 1) 1,
        .print (.name ⟨"a", 1⟩) 1]⟩ ∧
      program.Sheds program' ∧ program'.check = .ok () ∧
      program'.run 0 Buffer.unbounded = program.run 0 Buffer.unbounded := by
  have hcheck : check "var a int = \x7b const b bool = true; if b \x7b \x7d 1; \x7d; print a;" =
      .done ⟨[.varDef ⟨"a", 1⟩ (some ⟨"int", 1⟩) (.block [
          .constDef ⟨"b", 1⟩ (some ⟨"bool", 1⟩) (.literal (.bool true 1)) 1,
          .ifElse (.name ⟨"b", 1⟩) [] [] 1, .expr (.literal (.int 1 1))] 1) 1,
        .print (.name ⟨"a", 1⟩) 1]⟩ := by cbv
  refine ⟨_, _, hcheck, rfl, ?_⟩
  suffices shed : Program.Sheds _ _ by
    obtain ⟨haccepted, hrun⟩ := annotations_erasable hcheck shed
    exact ⟨shed, haccepted, hrun 0 Buffer.unbounded⟩
  exact Stmt.ShedsAll.cons (.varDef (.inl rfl) (.block (.cons (.constDef (.inr rfl) (.literal _))
    (.cons (.ifElse (.name _) .nil .nil) (.cons (.expr (.literal _)) .nil)))))
    (.cons (.print (.name _)) .nil)

end Source

end BlockLang
