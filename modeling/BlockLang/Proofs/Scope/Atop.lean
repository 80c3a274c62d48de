import BlockLang.Proofs.Scope.Layers

/-!
# Scopes on top of other scopes

`base.atop t` are the scopes of `t` inside the current scope of `base`: their numbers go on behind
those of `base`, and what is the outermost scope of `t` lies in the current scope of `base`.

Whatever is done inside of `t` is then done in the same way on top of `base`, and nothing of `base`
is touched by it: entering and leaving scopes, defining a name, and giving a name that is found in
`t` a new value.  It does not matter what `base` is, and `t` alone says what is found in it.
-/

namespace BlockLang.ScopeTree

variable {α : Type} {base t : ScopeTree α}

/-- A scope on top of others.  The number of the scope around it goes on behind theirs, and around
the outermost scope there is the current one of theirs. -/
def shifted (base : ScopeTree α) (scope : Scope α) : Scope α :=
  ⟨some (match scope.parent with
    | none => base.current
    | some parent => base.scopes.size + parent), scope.names⟩

/-- The scopes of `t` inside the current scope of `base`. -/
def atop (base t : ScopeTree α) : ScopeTree α :=
  ⟨base.scopes ++ t.scopes.map base.shifted, base.scopes.size + t.current⟩

lemma size_atop (base t : ScopeTree α) :
    (base.atop t).scopes.size = base.scopes.size + t.scopes.size := by
  rw [atop, Array.size_append, Array.size_map]

/-- A scope of `t`, by its number behind those of `base`. -/
lemma getElem?_atop (base t : ScopeTree α) (id : Nat) :
    (base.atop t).scopes[base.scopes.size + id]? = t.scopes[id]?.map base.shifted := by
  rw [atop, Array.getElem?_append_right (Nat.le_add_right _ _), Nat.add_sub_cancel_left,
    Array.getElem?_map]

/-! ## Entering and leaving -/

/-- A new scope is an outermost scope on top of the others. -/
lemma enter_eq_atop_root (base : ScopeTree α) : base.enter = base.atop root := by
  simp [enter, atop, root, shifted]

lemma atop_enter (base t : ScopeTree α) : (base.atop t).enter = base.atop t.enter := by
  simp [enter, atop, shifted]

/-- A scope inside of another one is left on top of others as it is left alone. -/
lemma atop_leaveAndDrop {top : NameMap α} {layers : List (NameMap α)}
    (h : t.HasLayers (top :: layers)) (inner : layers ≠ []) :
    (base.atop t).leaveAndDrop = base.atop t.leaveAndDrop := by
  cases h with
  | outermost _ => exact absurd rfl inner
  | @inside _ parent _ _ found _ _ =>
    have hparent : t.parent? = some parent := by
      rw [parent?, found]
      rfl
    have hparent' : (base.atop t).parent? = some (base.scopes.size + parent) := by
      show (base.atop t).scopes[base.scopes.size + t.current]?.bind _ = _
      rw [getElem?_atop, found]
      rfl
    have hsome : t.scopes.map base.shifted ≠ #[] := by
      intro hempty
      have hlt := (Array.getElem?_eq_some_iff.mp found).1
      rw [Array.map_eq_empty_iff.mp hempty] at hlt
      cases hlt
    rw [leaveAndDrop, leaveAndDrop, hparent, hparent']
    simp only [atop, Array.map_pop, Array.pop_append_of_ne_empty hsome]

/-- Behind the outermost scope there are the others as they were. -/
lemma atop_leaveAndDrop_outermost {top : NameMap α} (h : t.Stacked [top]) :
    (base.atop t).leaveAndDrop = base := by
  obtain ⟨hlayers, hsize⟩ := h
  cases hlayers with
  | inside _ _ around => exact absurd rfl around.ne_nil
  | outermost found =>
    have hparent : (base.atop t).parent? = some base.current := by
      show (base.atop t).scopes[base.scopes.size + t.current]?.bind _ = _
      rw [getElem?_atop, found]
      rfl
    have hpop : (base.scopes ++ t.scopes.map base.shifted).pop = base.scopes := by
      obtain ⟨scope, hscope⟩ := Array.size_eq_one_iff.mp hsize
      rw [hscope]
      simp
    rw [leaveAndDrop, hparent]
    simp only [atop, hpop]

/-! ## Names -/

/-- A scope of `t` is changed on top of others as it is changed alone. -/
lemma atop_insertAt (base t : ScopeTree α) (id : Nat) (name : String) (value : α) :
    (base.atop t).insertAt (base.scopes.size + id) name value =
      base.atop (t.insertAt id name value) := by
  have hscopes : ((base.atop t).insertAt (base.scopes.size + id) name value).scopes =
      (base.atop (t.insertAt id name value)).scopes := by
    refine Array.ext_getElem? fun i => ?_
    simp only [insertAt, atop, Array.getElem?_modify]
    by_cases hbase : i < base.scopes.size
    · rw [if_neg (by omega), Array.getElem?_append_left hbase, Array.getElem?_append_left hbase]
    · obtain ⟨j, rfl⟩ := Nat.exists_eq_add_of_le (Nat.le_of_not_lt hbase)
      simp only [Array.getElem?_append_right (Nat.le_add_right _ _), Nat.add_sub_cancel_left,
        Array.getElem?_map, Array.getElem?_modify, Nat.add_left_cancel_iff]
      by_cases hid : id = j
      · simp only [hid, if_true, Option.map_map]
        rfl
      · simp only [hid, if_false]
  exact congrArg (ScopeTree.mk · (base.scopes.size + t.current)) hscopes

lemma atop_insert (base t : ScopeTree α) (name : String) (value : α) :
    (base.atop t).insert name value = base.atop (t.insert name value) :=
  atop_insertAt base t t.current name value

/-- What is found in `t` is found in the same scope on top of `base`, however many more steps are
allowed there. -/
lemma findFrom_atop {name : String} {owner : Nat} {value : α} {steps steps' : Nat} {id : Nat}
    (enough : steps ≤ steps') (found : t.findFrom name steps (some id) = some (owner, value)) :
    (base.atop t).findFrom name steps' (some (base.scopes.size + id)) =
      some (base.scopes.size + owner, value) := by
  induction steps generalizing steps' id with
  | zero => cases found
  | succ steps ih =>
    obtain ⟨steps', rfl⟩ : ∃ n, steps' = n + 1 := ⟨steps' - 1, by omega⟩
    rw [findFrom] at found ⊢
    rw [getElem?_atop]
    cases hscope : t.scopes[id]? with
    | none => simp [hscope] at found
    | some scope =>
      simp only [hscope, Option.map_some, shifted] at found ⊢
      cases hname : scope.names.get? name with
      | some here =>
        simp only [hname, Option.some.injEq, Prod.mk.injEq] at found
        obtain ⟨rfl, rfl⟩ := found
        rfl
      | none =>
        simp only [hname] at found
        cases hparent : scope.parent with
        | none => rw [hparent, findFrom_none] at found; cases found
        | some parent =>
          rw [hparent] at found
          exact ih (by omega) found

lemma find?_atop {name : String} {owner : Nat} {value : α}
    (found : t.find? name = some (owner, value)) :
    (base.atop t).find? name = some (base.scopes.size + owner, value) := by
  have enough : t.scopes.size ≤ (base.atop t).scopes.size := by
    rw [size_atop]
    exact Nat.le_add_left _ _
  exact findFrom_atop enough found

end BlockLang.ScopeTree
