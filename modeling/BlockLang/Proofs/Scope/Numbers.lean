import BlockLang.Proofs.Scope.Layers
import Mathlib.Logic.Function.Iterate
import Mathlib.Logic.Relation
import Mathlib.Order.Nat

/-!
# The numbers of scopes that stay

A scope that is left with `leave` stays in the collection and keeps its number.  This module says
what the numbers are worth then, whatever scopes have been entered and left before.

* Each scope lies in one with a smaller number (`ScopeTree.Ordered`), so that the way outwards comes
  to its end (`Ordered.walk_ends`).
* A name is found in a scope that encloses the current one (`encloses_of_find?`).
* A scope that has been left encloses none of the later current ones (`ScopeTree.Abandoned`): a new
  scope has a new number, and all other ways lead outwards.
-/

namespace BlockLang.ScopeTree

variable {α : Type} {t : ScopeTree α} {id outer : Nat}

/-- The number of the scope around the one with a given number. -/
def outer? (t : ScopeTree α) (id : Nat) : Option Nat :=
  t.scopes[id]?.bind (·.parent)

lemma outer?_enter (t : ScopeTree α) (id : Nat) :
    t.enter.outer? id = if id = t.scopes.size then some t.current else t.outer? id := by
  rw [outer?, enter, Array.getElem?_push]
  split <;> rfl

lemma scopes_leave (t : ScopeTree α) : t.leave.scopes = t.scopes := by
  rw [leave]
  split <;> rfl

lemma outer?_leave (t : ScopeTree α) (id : Nat) : t.leave.outer? id = t.outer? id := by
  rw [outer?, scopes_leave, outer?]

lemma outer?_insertAt (t : ScopeTree α) (i : Nat) (name : String) (value : α) (id : Nat) :
    (t.insertAt i name value).outer? id = t.outer? id := by
  rw [outer?, insertAt, Array.getElem?_modify, outer?]
  split
  · cases t.scopes[id]? <;> rfl
  · rfl

/-! ## Links lead to smaller numbers -/

/-- The current scope is one of the collection, and each scope lies in one that was there before
it. -/
structure Ordered (t : ScopeTree α) : Prop where
  current_lt : t.current < t.scopes.size
  outer_lt : ∀ id outer, t.outer? id = some outer → outer < id

lemma ordered_root : (root : ScopeTree α).Ordered := by
  refine ⟨Nat.zero_lt_one, fun id outer h => ?_⟩
  cases id <;> cases h

namespace Ordered

lemma enter (h : t.Ordered) : t.enter.Ordered := by
  refine ⟨by simp [ScopeTree.enter], fun id outer hlink => ?_⟩
  rw [outer?_enter] at hlink
  split at hlink
  · next hid =>
    cases hlink
    rw [hid]
    exact h.current_lt
  · exact h.outer_lt id outer hlink

lemma leave (h : t.Ordered) : t.leave.Ordered := by
  refine ⟨?_, fun id outer hlink => h.outer_lt id outer ((outer?_leave t id).symm.trans hlink)⟩
  rw [scopes_leave, ScopeTree.leave]
  split
  · next outer hparent => exact (h.outer_lt t.current outer hparent).trans h.current_lt
  · exact h.current_lt

lemma insertAt (h : t.Ordered) (i : Nat) (name : String) (value : α) :
    (t.insertAt i name value).Ordered := by
  refine ⟨by simpa using h.current_lt, fun id outer hlink => ?_⟩
  exact h.outer_lt id outer ((outer?_insertAt t i name value id).symm.trans hlink)

/-- The way outwards from a scope has come to its end after as many steps as there are numbers up
to that of the scope. -/
lemma walk_ends (h : t.Ordered) {steps : Nat} (enough : id < steps) :
    (fun next : Option Nat => next.bind t.outer?)^[steps] (some id) = none := by
  induction steps generalizing id with
  | zero => cases enough
  | succ steps ih =>
    rw [Function.iterate_succ_apply]
    show (fun next : Option Nat => next.bind t.outer?)^[steps] (t.outer? id) = none
    cases hlink : t.outer? id with
    | none => exact Function.iterate_fixed rfl steps
    | some outer => exact ih ((h.outer_lt id outer hlink).trans_le (Nat.le_of_lt_succ enough))

end Ordered

/-! ## What a scope lies in -/

/-- The scope `outer` is `id` or lies somewhere around it. -/
def Encloses (t : ScopeTree α) (outer id : Nat) : Prop :=
  Relation.ReflTransGen (fun inner around => t.outer? inner = some around) id outer

lemma Encloses.le (h : t.Encloses outer id) (ordered : t.Ordered) : outer ≤ id := by
  induction h with
  | refl => exact Nat.le_refl id
  | tail _ hlink ih => exact (ordered.outer_lt _ _ hlink).le.trans ih

/-- A name is found in the scope where the search begins or around it. -/
lemma encloses_of_findFrom {name : String} {owner : Nat} {value : α} {steps : Nat}
    (found : t.findFrom name steps (some id) = some (owner, value)) : t.Encloses owner id := by
  induction steps generalizing id with
  | zero => cases found
  | succ steps ih =>
    obtain ⟨scope, hscope⟩ : ∃ scope, t.scopes[id]? = some scope := by
      cases hscope : t.scopes[id]? with
      | some scope => exact ⟨scope, rfl⟩
      | none => simp [findFrom, hscope] at found
    rw [findFrom] at found
    simp only [hscope] at found
    cases hname : scope.names.get? name with
    | some value' =>
      simp only [hname, Option.some.injEq, Prod.mk.injEq] at found
      rw [found.1]
      exact .refl
    | none =>
      simp only [hname] at found
      cases hparent : scope.parent with
      | none =>
        rw [hparent, findFrom_none] at found
        cases found
      | some around =>
        rw [hparent] at found
        have hlink : t.outer? id = some around := by
          rw [outer?, hscope]
          exact hparent
        exact .head hlink (ih found)

lemma encloses_of_find? {name : String} {owner : Nat} {value : α}
    (found : t.find? name = some (owner, value)) : t.Encloses owner t.current :=
  encloses_of_findFrom found

/-- A new scope encloses only itself. -/
lemma Encloses.of_enter (h : t.enter.Encloses outer id) (ordered : t.Ordered)
    (old : id < t.scopes.size) : t.Encloses outer id := by
  induction h using Relation.ReflTransGen.head_induction_on with
  | refl => exact .refl
  | head hlink _ ih =>
    rw [outer?_enter, if_neg old.ne] at hlink
    exact .head hlink (ih ((ordered.outer_lt _ _ hlink).trans old))

/-! ## Scopes that have been left -/

/-- A scope that the current one does not lie in. -/
structure Abandoned (t : ScopeTree α) (id : Nat) : Prop where
  lt_size : id < t.scopes.size
  not_encloses : ¬ t.Encloses id t.current

/-- The scope that is left is abandoned. -/
lemma abandoned_leave (ordered : t.Ordered) (inner : t.parent? ≠ none) :
    t.leave.Abandoned t.current := by
  obtain ⟨outer, hparent⟩ := Option.ne_none_iff_exists'.mp inner
  have hleave : t.leave.current = outer := by rw [leave, hparent]
  refine ⟨by rw [scopes_leave]; exact ordered.current_lt, fun h => ?_⟩
  have hle := h.le ordered.leave
  have hlt := ordered.outer_lt t.current outer hparent
  omega

namespace Abandoned

lemma enter (h : t.Abandoned id) (ordered : t.Ordered) : t.enter.Abandoned id := by
  refine ⟨by simpa [ScopeTree.enter] using h.lt_size.trans (Nat.lt_succ_self _), fun hin => ?_⟩
  rcases Relation.ReflTransGen.cases_head hin with hself | ⟨around, hlink, haround⟩
  · exact h.lt_size.ne hself.symm
  · -- Around the new scope there is the one that was current before.
    rw [outer?_enter, if_pos (show t.enter.current = t.scopes.size from rfl),
      Option.some.injEq] at hlink
    subst hlink
    exact h.not_encloses (Encloses.of_enter haround ordered ordered.current_lt)

lemma leave (h : t.Abandoned id) : t.leave.Abandoned id := by
  refine ⟨by simpa [scopes_leave] using h.lt_size, fun hin => h.not_encloses ?_⟩
  have hin' : t.Encloses id t.leave.current := by
    simpa only [Encloses, outer?_leave] using hin
  cases hparent : t.parent? with
  | none => rwa [ScopeTree.leave, hparent] at hin'
  | some outer =>
    rw [ScopeTree.leave, hparent] at hin'
    exact .head hparent hin'

lemma insertAt (h : t.Abandoned id) (i : Nat) (name : String) (value : α) :
    (t.insertAt i name value).Abandoned id := by
  refine ⟨by simpa using h.lt_size, fun hin => h.not_encloses ?_⟩
  simpa only [Encloses, outer?_insertAt, current_insertAt] using hin

/-- No name is found in an abandoned scope. -/
lemma ne_owner {name : String} {owner : Nat} {value : α} (h : t.Abandoned id)
    (found : t.find? name = some (owner, value)) : owner ≠ id := by
  rintro rfl
  exact h.not_encloses (encloses_of_find? found)

end Abandoned

end BlockLang.ScopeTree
