import BlockLang.Scope.ScopeTree
import Mathlib.Tactic.Common

/-!
# Nested scopes as a list of maps

A `ScopeTree` numbers its scopes and links each one to the scope around it.  What a program can
see of it is much less: the maps on the way from the current scope to the outermost one.  This
module gives that view, `ScopeTree.HasLayers`, and says what each operation does to it:

* `HasLayers.enter` puts an empty map on top, `HasLayers.leave` takes the top map off;
* `HasLayers.insert` changes the top map and no other;
* `HasLayers.get?_eq` looks a name up from the top to the bottom;
* `HasLayers.insertAt` replaces the value in the topmost map that has the name.

The view is a relation and not a function of the tree, because it also says that the links lead
to smaller numbers and end at the outermost scope, so that looking a name up always ends.

A tree is `Stacked` if it consists of the scopes on that way and of nothing else.  Then the scope
that `leaveAndDrop` destroys is the current one.
-/

namespace BlockLang.ScopeTree

variable {α : Type} {scopes : Array (Scope α)} {t : ScopeTree α} {id : Nat}
  {top : NameMap α} {layers : List (NameMap α)}

/-- Give a name a value in the topmost map that has it. -/
def replaceFirst (name : String) (value : α) : List (NameMap α) → List (NameMap α)
  | [] => []
  | top :: layers =>
    if top.contains name then top.insert name value :: layers
    else top :: replaceFirst name value layers

@[simp] lemma length_replaceFirst (name : String) (value : α) (layers : List (NameMap α)) :
    (replaceFirst name value layers).length = layers.length := by
  induction layers with
  | nil => rfl
  | cons top layers ih =>
    rw [replaceFirst]
    split <;> simp [ih]

lemma replaceFirst_of_some {name : String} {old value : α} (h : top.get? name = some old) :
    replaceFirst name value (top :: layers) = top.insert name value :: layers := by
  simp [replaceFirst, NameMap.contains, h]

lemma replaceFirst_of_none {name : String} {value : α} (h : top.get? name = none) :
    replaceFirst name value (top :: layers) = top :: replaceFirst name value layers := by
  simp [replaceFirst, NameMap.contains, h]

/-! ## Looking a name up, one scope at a time -/

lemma findFrom_none (t : ScopeTree α) (name : String) (steps : Nat) :
    t.findFrom name steps none = none := by
  cases steps <;> rfl

/-- A name is found in the scope where the search begins, or that scope does not have it and the
search goes on around it. -/
lemma findFrom_cases {steps owner : Nat} {name : String} {value : α} {scope : Scope α}
    (at_id : t.scopes[id]? = some scope)
    (found : t.findFrom name steps (some id) = some (owner, value)) :
    (owner = id ∧ scope.names.get? name = some value) ∨
      ∃ steps', scope.names.get? name = none ∧
        t.findFrom name steps' scope.parent = some (owner, value) := by
  cases steps with
  | zero => simp [findFrom] at found
  | succ steps =>
    rw [findFrom] at found
    simp only [at_id] at found
    cases hname : scope.names.get? name with
    | none => exact .inr ⟨steps, rfl, by simpa [hname] using found⟩
    | some value' =>
      simp only [hname, Option.some.injEq, Prod.mk.injEq] at found
      exact .inl ⟨found.1.symm, by rw [found.2]⟩

/-! ## The way outwards -/

/-- The maps from the scope with a given number to the outermost scope. -/
inductive Chain (scopes : Array (Scope α)) : Nat → List (NameMap α) → Prop
  /-- The outermost scope. -/
  | outermost {id : Nat} {names : NameMap α} (found : scopes[id]? = some ⟨none, names⟩) :
      Chain scopes id [names]
  /-- A scope inside of another one, which was there before it. -/
  | inside {id parent : Nat} {names : NameMap α} {layers : List (NameMap α)}
      (found : scopes[id]? = some ⟨some parent, names⟩) (older : parent < id)
      (around : Chain scopes parent layers) : Chain scopes id (names :: layers)

namespace Chain

lemma lt_size (h : Chain scopes id layers) : id < scopes.size := by
  cases h with
  | outermost found => exact (Array.getElem?_eq_some_iff.mp found).1
  | inside found _ _ => exact (Array.getElem?_eq_some_iff.mp found).1

lemma ne_nil (h : Chain scopes id layers) : layers ≠ [] := by
  cases h <;> exact List.cons_ne_nil _ _

/-- The numbers go down, so that there are at most as many maps as numbers. -/
lemma length_le (h : Chain scopes id layers) : layers.length ≤ id + 1 := by
  induction h with
  | outermost _ => simp
  | inside _ older _ ih =>
    rw [List.length_cons]
    omega

/-- Only the scopes up to the first one matter. -/
lemma congr {scopes' : Array (Scope α)} (h : Chain scopes id layers)
    (same : ∀ i ≤ id, scopes'[i]? = scopes[i]?) : Chain scopes' id layers := by
  induction h with
  | outermost found =>
    exact .outermost (by rw [same _ (Nat.le_refl _), found])
  | inside found older _ ih =>
    refine .inside (by rw [same _ (Nat.le_refl _), found]) older (ih fun i hi => ?_)
    exact same i (by omega)

lemma push (h : Chain scopes id layers) (scope : Scope α) :
    Chain (scopes.push scope) id layers := by
  refine h.congr fun i hi => ?_
  have hlt : i < scopes.size := Nat.lt_of_le_of_lt hi h.lt_size
  rw [Array.getElem?_push_lt hlt, Array.getElem?_eq_getElem hlt]

lemma pop (h : Chain scopes id layers) (inner : id + 1 < scopes.size) :
    Chain scopes.pop id layers := by
  refine h.congr fun i hi => ?_
  rw [Array.getElem?_pop, if_pos (by omega)]

/-- A new value in a scope that is further inside changes nothing. -/
lemma insertAt_of_lt {i : Nat} (h : Chain t.scopes id layers) (inner : id < i) (name : String)
    (value : α) : Chain (t.insertAt i name value).scopes id layers := by
  refine h.congr fun j hj => ?_
  rw [insertAt, Array.getElem?_modify, if_neg (by omega)]

/-- Looking a name up goes through the maps from the inside to the outside. -/
lemma findFrom_eq {steps : Nat} (h : Chain t.scopes id layers) (enough : id < steps)
    (name : String) :
    (t.findFrom name steps (some id)).map (·.2) = layers.findSome? (·.get? name) := by
  induction h generalizing steps with
  | outermost found =>
    obtain ⟨steps, rfl⟩ : ∃ n, steps = n + 1 := ⟨steps - 1, by omega⟩
    rw [findFrom]
    cases steps <;> simp only [found, findFrom] <;> split <;> simp_all
  | inside found older _ ih =>
    obtain ⟨steps, rfl⟩ : ∃ n, steps = n + 1 := ⟨steps - 1, by omega⟩
    have hrest := @ih steps (by omega)
    rw [findFrom]
    simp only [found, List.findSome?_cons]
    split <;> simp_all

/-- A name is found in the scope where the search begins or further out. -/
lemma owner_le {steps owner : Nat} {name : String} {value : α} (h : Chain t.scopes id layers)
    (found : t.findFrom name steps (some id) = some (owner, value)) : owner ≤ id := by
  induction h generalizing steps with
  | outermost at_id =>
    obtain ⟨rfl, _⟩ | ⟨_, _, hrest⟩ := findFrom_cases at_id found
    · exact Nat.le_refl _
    · simp [findFrom_none] at hrest
  | inside at_id older _ ih =>
    obtain ⟨rfl, _⟩ | ⟨_, _, hrest⟩ := findFrom_cases at_id found
    · exact Nat.le_refl _
    · exact Nat.le_trans (ih hrest) (Nat.le_of_lt older)

/-- Replacing the value of a name in the scope where it is found replaces it in the topmost map
that has it. -/
lemma insertAt {steps owner : Nat} {name : String} {old : α} (h : Chain t.scopes id layers)
    (found : t.findFrom name steps (some id) = some (owner, old)) (value : α) :
    Chain (t.insertAt owner name value).scopes id (replaceFirst name value layers) := by
  induction h generalizing steps with
  | outermost at_id =>
    obtain ⟨rfl, hname⟩ | ⟨_, _, hrest⟩ := findFrom_cases at_id found
    · rw [replaceFirst_of_some hname]
      exact .outermost (by simp [ScopeTree.insertAt, Array.getElem?_modify, at_id])
    · simp [findFrom_none] at hrest
  | inside at_id older around ih =>
    obtain ⟨rfl, hname⟩ | ⟨_, hname, hrest⟩ := findFrom_cases at_id found
    · rw [replaceFirst_of_some hname]
      refine .inside ?_ older (around.insertAt_of_lt older name value)
      simp [ScopeTree.insertAt, Array.getElem?_modify, at_id]
    · -- The owner is further out, so this scope stays as it was.
      have howner := around.owner_le hrest
      rw [replaceFirst_of_none hname]
      refine .inside ?_ older (ih hrest)
      rw [ScopeTree.insertAt, Array.getElem?_modify, if_neg (by omega), at_id]

end Chain

/-! ## The view -/

/-- The maps that can be seen from the current scope, the innermost first. -/
def HasLayers (t : ScopeTree α) (layers : List (NameMap α)) : Prop :=
  Chain t.scopes t.current layers

lemma hasLayers_root : (root : ScopeTree α).HasLayers [.empty] :=
  .outermost rfl

namespace HasLayers

lemma ne_nil (h : t.HasLayers layers) : layers ≠ [] :=
  Chain.ne_nil h

lemma enter (h : t.HasLayers layers) : t.enter.HasLayers (.empty :: layers) := by
  refine .inside ?_ (Chain.lt_size h) (Chain.push h _)
  simp [ScopeTree.enter]

/-- The outermost scope is never left, so there has to be another map below the top one. -/
lemma leave (h : t.HasLayers (top :: layers)) (inner : layers ≠ []) :
    t.leave.HasLayers layers := by
  cases h with
  | outermost _ => exact absurd rfl inner
  | @inside _ parent _ _ found _ around =>
    have hparent : t.parent? = some parent := by
      rw [parent?, found]
      rfl
    simp only [ScopeTree.leave, hparent]
    exact around

lemma insert (h : t.HasLayers (top :: layers)) (name : String) (value : α) :
    (t.insert name value).HasLayers (top.insert name value :: layers) := by
  cases h with
  | outermost found =>
    exact .outermost (by simp [ScopeTree.insert, insertAt, Array.getElem?_modify, found])
  | inside found older around =>
    refine .inside ?_ older (around.insertAt_of_lt older name value)
    simp [ScopeTree.insert, insertAt, Array.getElem?_modify, found]

/-- The current scope defines what the top map has. -/
lemma here_eq (h : t.HasLayers (top :: layers)) : t.here = top := by
  cases h with
  | outermost found => simp [here, found]
  | inside found _ _ => simp [here, found]

lemma get?_eq (h : t.HasLayers layers) (name : String) :
    t.get? name = layers.findSome? (·.get? name) :=
  Chain.findFrom_eq h (Chain.lt_size h) name

/-- A name that is found somewhere can be given a new value there. -/
lemma insertAt {name : String} {owner : Nat} {old : α} (h : t.HasLayers layers)
    (found : t.find? name = some (owner, old)) (value : α) :
    (t.insertAt owner name value).HasLayers (replaceFirst name value layers) :=
  Chain.insertAt h found value

end HasLayers

/-! ## Nothing but the way outwards -/

/-- A tree that consists of the scopes around the current one alone. -/
structure Stacked (t : ScopeTree α) (layers : List (NameMap α)) : Prop where
  hasLayers : t.HasLayers layers
  size_eq : t.scopes.size = layers.length

lemma stacked_root : (root : ScopeTree α).Stacked [.empty] :=
  ⟨hasLayers_root, rfl⟩

namespace Stacked

lemma enter (h : t.Stacked layers) : t.enter.Stacked (.empty :: layers) :=
  ⟨h.hasLayers.enter, by simp [ScopeTree.enter, h.size_eq]⟩

lemma insert (h : t.Stacked (top :: layers)) (name : String) (value : α) :
    (t.insert name value).Stacked (top.insert name value :: layers) :=
  ⟨h.hasLayers.insert name value, by simpa [ScopeTree.insert] using h.size_eq⟩

lemma insertAt {name : String} {owner : Nat} {old : α} (h : t.Stacked layers)
    (found : t.find? name = some (owner, old)) (value : α) :
    (t.insertAt owner name value).Stacked (replaceFirst name value layers) :=
  ⟨h.hasLayers.insertAt found value, by simpa using h.size_eq⟩

/-- The scope that is destroyed is the current one: there are as many scopes as maps, so the
numbers go down by one at a time. -/
lemma leaveAndDrop (h : t.Stacked (top :: layers)) (inner : layers ≠ []) :
    t.leaveAndDrop.Stacked layers := by
  obtain ⟨hlayers, hsize⟩ := h
  cases hlayers with
  | outermost _ => exact absurd rfl inner
  | @inside _ parent _ _ found older around =>
    have hparent : t.parent? = some parent := by
      rw [parent?, found]
      rfl
    have hlength := around.length_le
    have hcurrent := (Array.getElem?_eq_some_iff.mp found).1
    rw [List.length_cons] at hsize
    have hdropped : parent + 1 < t.scopes.size := by omega
    simp only [ScopeTree.leaveAndDrop, hparent]
    refine ⟨Chain.pop around hdropped, ?_⟩
    rw [Array.size_pop, hsize, Nat.add_sub_cancel]

end Stacked

end BlockLang.ScopeTree
