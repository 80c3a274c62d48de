import BlockLang.Fault.Basic
import BlockLang.Proofs.Scope.Layers
import Mathlib.Data.Nat.PSub

/-!
# Nested scopes as a stack of maps

The simplest picture of nested scopes is a stack of finite maps that is never empty: a scope that
is entered is an empty map on top, a scope that is left is gone, and a name means what the topmost
map that has it says.  `MapStack` is that picture.  It has no numbers and no links.

A `ScopeTree` shows the maps of a stack `s` if `t.HasLayers s.maps`, and consists of nothing else if
`t.Stacked s.maps`.  The operations of the two go together (`HasLayers.leave_maps`,
`Stacked.leaveAndDrop_maps` and the lemmas of `BlockLang.ScopeTree.HasLayers`), also where the
outermost scope is asked to be left, which neither of the two does.

Trees and stacks are asked and changed by calls.  What answers single calls alike answers any number
of calls alike (`Calls.mapM_lockstep`).
-/

namespace BlockLang

/-! ## Stacks -/

/-- A stack of finite maps with at least one map. -/
structure MapStack (α : Type) where
  top : NameMap α
  /-- The maps below the top one, from the top to the bottom. -/
  below : List (NameMap α)

namespace MapStack

variable {α : Type}

/-- A single map, without names. -/
def root : MapStack α :=
  ⟨.empty, []⟩

/-- All maps, from the top to the bottom. -/
def maps (s : MapStack α) : List (NameMap α) :=
  s.top :: s.below

/-- Put an empty map on top. -/
def enter (s : MapStack α) : MapStack α :=
  ⟨.empty, s.maps⟩

/-- Take the top map off, unless it is the only one. -/
def leave (s : MapStack α) : MapStack α :=
  match s.below with
  | [] => s
  | next :: rest => ⟨next, rest⟩

/-- Give a name a value in the top map. -/
def insert (s : MapStack α) (name : String) (value : α) : MapStack α :=
  ⟨s.top.insert name value, s.below⟩

/-- The value of a name in the topmost map that has it. -/
def get? (s : MapStack α) (name : String) : Option α :=
  s.maps.findSome? (·.get? name)

/-- Give a name a value in the topmost map that has it. -/
def update (s : MapStack α) (name : String) (value : α) : MapStack α :=
  if s.top.contains name then s.insert name value
  else ⟨s.top, ScopeTree.replaceFirst name value s.below⟩

/-- A name that was given a value has it, whatever the maps below say of it, and no other name means
anything else. -/
lemma get?_insert (s : MapStack α) (name other : String) (value : α) :
    (s.insert name value).get? other = if other = name then some value else s.get? other := by
  have htop := s.top.get?_insert name other value
  rw [get?, get?, maps, maps, insert, List.findSome?_cons, List.findSome?_cons, htop]
  by_cases h : other = name
  · rw [if_pos h, if_pos h]
  · rw [if_neg h, if_neg h]

lemma maps_update (s : MapStack α) (name : String) (value : α) :
    (s.update name value).maps = ScopeTree.replaceFirst name value s.maps := by
  rw [update, maps, maps, ScopeTree.replaceFirst]
  split <;> rfl

end MapStack

/-! ## Trees that show a stack -/

namespace ScopeTree

variable {α : Type} {t : ScopeTree α} {layers : List (NameMap α)} {s : MapStack α}

/-- Only the outermost scope is a single map. -/
lemma HasLayers.parent?_eq_none {top : NameMap α} (h : t.HasLayers [top]) : t.parent? = none := by
  cases h with
  | outermost found => rw [parent?, found]; rfl
  | inside _ _ around => exact absurd rfl around.ne_nil

lemma HasLayers.leave_maps (h : t.HasLayers s.maps) : t.leave.HasLayers s.leave.maps := by
  obtain ⟨top, below⟩ := s
  cases below with
  | nil => rwa [ScopeTree.leave, HasLayers.parent?_eq_none h]
  | cons next rest => exact HasLayers.leave h (List.cons_ne_nil next rest)

lemma Stacked.leaveAndDrop_maps (h : t.Stacked s.maps) :
    t.leaveAndDrop.Stacked s.leave.maps := by
  obtain ⟨top, below⟩ := s
  cases below with
  | nil => rwa [ScopeTree.leaveAndDrop, HasLayers.parent?_eq_none h.hasLayers]
  | cons next rest => exact Stacked.leaveAndDrop h (List.cons_ne_nil next rest)

/-! ## Trees without anything else -/

/-- If there are as many maps as numbers up to the current one, no number is left out. -/
lemma Chain.parent_eq {scopes : Array (Scope α)} {id : Nat} (h : Chain scopes id layers)
    (full : id < layers.length) {i : Nat} (hi : i ≤ id) :
    scopes[i]?.map (·.parent) = some i.ppred := by
  induction h with
  | outermost found =>
    obtain rfl : _ = 0 := Nat.lt_one_iff.mp full
    obtain rfl := Nat.le_zero.mp hi
    rw [found]
    rfl
  | @inside id parent names layers found older around ih =>
    have hlength := around.length_le
    rw [List.length_cons] at full
    obtain rfl : id = parent + 1 := by omega
    rcases Nat.lt_or_eq_of_le hi with hlt | rfl
    · exact ih (by omega) (Nat.le_of_lt_succ hlt)
    · rw [found]
      rfl

namespace Stacked

/-- The current scope is the last one. -/
lemma current_eq (h : t.Stacked layers) : t.current + 1 = t.scopes.size := by
  have hlt := Chain.lt_size h.hasLayers
  have hle := Chain.length_le h.hasLayers
  have hsize := h.size_eq
  omega

/-- Each scope lies in the one with the preceding number. -/
lemma parents_eq (h : t.Stacked layers) :
    t.scopes.map (·.parent) = (Array.range t.scopes.size).map Nat.ppred := by
  have hcurrent := h.current_eq
  refine Array.ext_getElem? fun i => ?_
  rw [Array.getElem?_map, Array.getElem?_map]
  by_cases hi : i < t.scopes.size
  · rw [Chain.parent_eq h.hasLayers (by rw [← h.size_eq]; omega) (show i ≤ t.current by omega),
      Array.getElem?_range, if_pos hi]
    rfl
  · rw [Array.getElem?_eq_none (by omega), Array.getElem?_eq_none (by simpa using hi)]
    rfl

end Stacked

end ScopeTree

/-! ## Calls -/

namespace Calls

variable {S T A B C : Type} {R : S → T → Prop}

/-- Carry out an operation that may be refused, and say whether it was.  An operation that is
refused changes nothing. -/
def unlessRefused (operation : S → Except Fault S) (answer : Option Fault → A) : StateM S A :=
  fun s =>
    match operation s with
    | .ok s' => (answer none, s')
    | .error fault => (answer (some fault), s)

/-- Two operations are refused with the same fault, or both lead on to related states. -/
def Together (R : S → T → Prop) (result : Except Fault S) (result' : Except Fault T) : Prop :=
  match result, result' with
  | .ok s, .ok t => R s t
  | .error fault, .error fault' => fault = fault'
  | _, _ => False

/-- Operations that go together are refused alike and lead to related states, also if they are
refused. -/
lemma unlessRefused_lockstep {f : S → Except Fault S} {g : T → Except Fault T} {s : S} {t : T}
    (together : Together R (f s) (g t)) (h : R s t) (answer : Option Fault → A)
    (answer' : Option Fault → B) :
    ∃ refusal s' t', (unlessRefused f answer).run s = (answer refusal, s') ∧
      (unlessRefused g answer').run t = (answer' refusal, t') ∧ R s' t' := by
  unfold Together at together
  split at together
  · next s' t' hs ht =>
    refine ⟨none, s', t', ?_, ?_, together⟩
    · simp only [StateT.run, unlessRefused, hs]
    · simp only [StateT.run, unlessRefused, ht]
  · next fault fault' hs ht =>
    subst together
    refine ⟨some fault, s, t, ?_, ?_, h⟩
    · simp only [StateT.run, unlessRefused, hs]
    · simp only [StateT.run, unlessRefused, ht]
  · exact together.elim

/-- If single calls are answered alike from related states and lead to related states, then any
number of calls are.  Of the answers on one side only a part may matter, which `view` gives. -/
lemma mapM_lockstep {f : C → StateM S A} {g : C → StateM T B} (view : A → B)
    (step : ∀ c s t, R s t →
      view ((f c).run s).1 = ((g c).run t).1 ∧ R ((f c).run s).2 ((g c).run t).2)
    (calls : List C) {s : S} {t : T} (h : R s t) :
    ((calls.mapM f).run s).1.map view = ((calls.mapM g).run t).1 ∧
      R ((calls.mapM f).run s).2 ((calls.mapM g).run t).2 := by
  induction calls generalizing s t with
  | nil => exact ⟨rfl, h⟩
  | cons c calls ih =>
    obtain ⟨hanswer, hstates⟩ := step c s t h
    obtain ⟨hanswers, hends⟩ := ih hstates
    simp only [List.mapM_cons, StateT.run_bind]
    exact ⟨congrArg₂ List.cons hanswer hanswers, hends⟩

/-- What single calls keep is kept by any number of calls. -/
lemma mapM_keeps {f : C → StateM S A} {I : S → Prop}
    (step : ∀ c s, I s → I ((f c).run s).2) (calls : List C) {s : S} (h : I s) :
    I ((calls.mapM f).run s).2 := by
  induction calls generalizing s with
  | nil => exact h
  | cons c calls ih =>
    simp only [List.mapM_cons, StateT.run_bind]
    exact ih (step c s h)

end Calls

end BlockLang
