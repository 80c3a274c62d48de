import BlockLang.Proofs.Typing.Lines
import BlockLang.Proofs.Typing.Relabelling

/-!
# Checking one program after another

A checker that is used again knows what the programs before have defined, and has handed over the
faults of these programs and forgotten them.  It never looks at a fault that it has found
(`TypeChecker.run_checkStmts_behind`), so that forgetting them changes nothing: programs that are
checked one after another have, taken together, the faults of the one program that consists of all
their statements (`TypeChecker.checkEach_faults`).
-/

namespace BlockLang

namespace TypeChecker

variable {c : TypeChecker}

/-- The faults that a check hands over. -/
def handedOver : Except Fault Unit → List Fault
  | .ok () => []
  | .error fault => fault.elements

/-- Check programs one after another with the same checker. -/
def checkEach : List Program → TypeChecker → List (Except Fault Unit) × TypeChecker
  | [], c => ([], c)
  | program :: rest, c =>
    let (result, behind) := check program c
    let (results, last) := checkEach rest behind
    (result :: results, last)

/-- The checker in the same place without the faults that it has found. -/
def forget (c : TypeChecker) : TypeChecker :=
  ⟨c.symbols, [], c.loopDepth⟩

lemma forget_behind (c : TypeChecker) : c.forget.behind c.errors = c := by
  rw [forget, behind, List.append_nil]

lemma forget_of_errors_eq_nil (h : c.errors = []) : c.forget = c := by
  rw [forget, ← h]

lemma relabel_identity (c : TypeChecker) : c.relabel .identity = c := by
  have hsymbols : c.symbols.relabel .identity (Symbol.relabel .identity) = c.symbols :=
    ScopeTree.relabel_identity (fun _ => rfl) c.symbols
  have herrors : c.errors.map (Fault.relabel .identity) = c.errors := by
    rw [List.map_congr_left fun fault _ => fault.relabel_identity, List.map_id']
  rw [relabel, hsymbols, herrors]

/-- Faults that were found earlier stay in front of the new ones and change nothing else. -/
lemma run_checkStmts_behind (body : List Stmt) (earlier : List Fault) (c : TypeChecker) :
    (checkStmts body).run (c.behind earlier) =
      (((checkStmts body).run c).1, ((checkStmts body).run c).2.behind earlier) := by
  have hfollows := checkStmts_follows (r := .identity) body earlier c
  rwa [Stmt.relabelAll_identity, relabel_identity, relabel_identity] at hfollows

/-- Statements are checked from the first one to the last one. -/
lemma run_checkStmts_append (body rest : List Stmt) : ∀ c : TypeChecker,
    ((checkStmts (body ++ rest)).run c).2 =
      ((checkStmts rest).run ((checkStmts body).run c).2).2 := by
  -- The last statement of a list is checked by a rule of its own.
  induction body with
  | nil => exact fun _ => rfl
  | cons first body ih =>
    intro c
    have hcons : ∀ (body : List Stmt) (c : TypeChecker), ((checkStmts (first :: body)).run c).2 =
        ((checkStmts body).run ((checkStmt first).run c).2).2 := by
      intro body c
      cases body <;> rfl
    rw [List.cons_append, hcons, hcons, ih]

/-- A check hands over all faults that have been found and forgets them. -/
lemma check_eq (program : Program) (c : TypeChecker) :
    handedOver (check program c).1 = ((checkStmts program.body).run c).2.errors ∧
      (check program c).2 = ((checkStmts program.body).run c).2.forget := by
  rw [check]
  generalize (checkStmts program.body).run c = ending
  obtain ⟨ty, c'⟩ := ending
  refine ⟨?_, rfl⟩
  show handedOver (if c'.errors.isEmpty then .ok () else .error (.typeErrors c'.errors)) = c'.errors
  by_cases hempty : c'.errors.isEmpty
  · rw [if_pos hempty, List.isEmpty_iff.mp hempty]
    rfl
  · rw [if_neg hempty]
    rfl

/-- What is found in the first program and what is found in the others behind it is what is found
in all of them. -/
lemma checkEach_eq (programs : List Program) : ∀ c : TypeChecker, c.errors = [] →
    (checkEach programs c).1.flatMap handedOver =
        ((checkStmts (programs.flatMap Program.body)).run c).2.errors ∧
      (checkEach programs c).2 = ((checkStmts (programs.flatMap Program.body)).run c).2.forget := by
  induction programs with
  | nil =>
    intro c hc
    exact ⟨hc.symm, (forget_of_errors_eq_nil hc).symm⟩
  | cons program rest ih =>
    intro c hc
    obtain ⟨hfaults, hbehind⟩ := check_eq program c
    rw [List.flatMap_cons, run_checkStmts_append]
    generalize ((checkStmts program.body).run c).2 = c' at hfaults hbehind ⊢
    obtain ⟨hrest, hlast⟩ := ih c'.forget rfl
    have hrun := run_checkStmts_behind (rest.flatMap Program.body) c'.errors c'.forget
    rw [forget_behind] at hrun
    rw [hrun]
    constructor
    · show handedOver (check program c).1 ++
        (checkEach rest (check program c).2).1.flatMap handedOver = _
      rw [hfaults, hbehind, hrest]
      rfl
    · show (checkEach rest (check program c).2).2 = _
      rw [hbehind, hlast]
      rfl

/-- Programs that are checked one after another have, taken together, the faults of the program
that consists of all their statements, and leave the checker where this program leaves it. -/
theorem checkEach_faults (programs : List Program) :
    (checkEach programs .new).1.flatMap handedOver =
        handedOver (check ⟨programs.flatMap Program.body⟩ .new).1 ∧
      (checkEach programs .new).2 = (check ⟨programs.flatMap Program.body⟩ .new).2 := by
  obtain ⟨hfaults, hbehind⟩ := check_eq ⟨programs.flatMap Program.body⟩ .new
  obtain ⟨heach, hlast⟩ := checkEach_eq programs .new rfl
  exact ⟨heach.trans hfaults.symm, hlast.trans hbehind.symm⟩

end TypeChecker

end BlockLang
