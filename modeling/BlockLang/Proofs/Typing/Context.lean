import BlockLang.Proofs.Scope.Layers
import BlockLang.Typing.Ty

/-!
# Contexts

A `Context` is what the definitions in front of a point of a program make known there: for each
scope around the point, from the innermost one outwards, its declarations.  Two relations say all
about contexts that the typing rules need: `Context.Resolves`, which declaration a use of a name
refers to, and `Context.Declares`, what a definition adds.

The checker and the running program hold the same knowledge in maps, the one as symbols and the
other as bindings.  `Context.Describes` ties a context to such maps, whatever they hold, by a
function `view` that tells the kind and the type of what they hold.  The lemmas about it are used
twice: by the comparison of the checker with the typing rules, and by the proof that a checked
program keeps the types of its variables.
-/

namespace BlockLang

/-- What a definition makes known about a name. -/
structure Declaration where
  name : String
  kind : BindingKind
  ty : Ty
  deriving DecidableEq, Repr

/-- The declarations of the scopes around a point, the innermost scope and the latest
declaration first. -/
abbrev Context := List (List Declaration)

namespace Context

/-- A use of a name refers to the declaration in the nearest scope that declares the name. -/
inductive Resolves : Context → String → Declaration → Prop
  | here {scope : List Declaration} {outer : Context} {d : Declaration} (declared : d ∈ scope) :
      Resolves (scope :: outer) d.name d
  | outward {scope : List Declaration} {outer : Context} {name : String} {d : Declaration}
      (unknown : ∀ d' ∈ scope, d'.name ≠ name) (around : Resolves outer name d) :
      Resolves (scope :: outer) name d

/-- A definition adds a declaration to the innermost scope, where its name is new. -/
inductive Declares : Context → Declaration → Context → Prop
  | fresh {scope : List Declaration} {outer : Context} {d : Declaration}
      (unknown : ∀ d' ∈ scope, d'.name ≠ d.name) :
      Declares (scope :: outer) d ((d :: scope) :: outer)

lemma Declares.tail_eq {Γ Δ : Context} {d : Declaration} (h : Γ.Declares d Δ) :
    Δ.tail = Γ.tail := by
  cases h
  rfl

/-! ## Contexts and maps -/

section Describes

variable {β : Type} {view : β → Option (BindingKind × Ty)} {scope : List Declaration}
  {names : NameMap β} {Γ : Context} {layers : List (NameMap β)}

/-- The declarations of a scope are what a map holds, seen through `view`. -/
structure DescribesScope (view : β → Option (BindingKind × Ty)) (scope : List Declaration)
    (names : NameMap β) : Prop where
  declared : ∀ d ∈ scope, ∃ b, names.get? d.name = some b ∧ view b = some (d.kind, d.ty)
  known : ∀ name b, names.get? name = some b → ∃ d ∈ scope, d.name = name

/-- Scope by scope, a context tells what the maps hold. -/
def Describes (view : β → Option (BindingKind × Ty)) (Γ : Context)
    (layers : List (NameMap β)) : Prop :=
  List.Forall₂ (DescribesScope view) Γ layers

lemma describesScope_empty : DescribesScope view [] (.empty : NameMap β) :=
  ⟨fun _ h => absurd h List.not_mem_nil, fun _ _ h => by simp at h⟩

namespace DescribesScope

/-- A name without a value in the map has no declaration, and the other way round. -/
lemma get?_eq_none_iff (h : DescribesScope view scope names) (name : String) :
    names.get? name = none ↔ ∀ d ∈ scope, d.name ≠ name := by
  constructor
  · rintro hnone d hd rfl
    obtain ⟨b, hb, -⟩ := h.declared d hd
    rw [hnone] at hb
    cases hb
  · intro unknown
    cases hname : names.get? name with
    | none => rfl
    | some b =>
      obtain ⟨d, hd, heq⟩ := h.known name b hname
      exact absurd heq (unknown d hd)

/-- A new name in the map is a new declaration. -/
lemma insert (h : DescribesScope view scope names) {d : Declaration} {b : β}
    (unknown : ∀ d' ∈ scope, d'.name ≠ d.name) (hb : view b = some (d.kind, d.ty)) :
    DescribesScope view (d :: scope) (names.insert d.name b) := by
  refine ⟨fun d' hd' => ?_, fun name b' hname => ?_⟩
  · rcases List.mem_cons.mp hd' with rfl | hold
    · exact ⟨b, NameMap.get?_insert_self _ _ _, hb⟩
    · obtain ⟨b', hb', hview⟩ := h.declared d' hold
      refine ⟨b', ?_, hview⟩
      rw [NameMap.get?_insert, if_neg (unknown d' hold), hb']
  · by_cases heq : name = d.name
    · exact ⟨d, List.mem_cons_self, heq.symm⟩
    · rw [NameMap.get?_insert, if_neg heq] at hname
      obtain ⟨d', hd', hd'name⟩ := h.known name b' hname
      exact ⟨d', List.mem_cons_of_mem _ hd', hd'name⟩

/-- A new value that looks like the old one is described by the same declarations. -/
lemma replace (h : DescribesScope view scope names) {name : String} {old new : β}
    (hold : names.get? name = some old) (hview : view new = view old) :
    DescribesScope view scope (names.insert name new) := by
  refine ⟨fun d hd => ?_, fun other b hother => ?_⟩
  · obtain ⟨b, hb, hbview⟩ := h.declared d hd
    by_cases heq : d.name = name
    · rw [heq, hold, Option.some.injEq] at hb
      refine ⟨new, ?_, ?_⟩
      · rw [NameMap.get?_insert, if_pos heq]
      · rw [hview, hb, hbview]
    · exact ⟨b, by rw [NameMap.get?_insert, if_neg heq, hb], hbview⟩
  · by_cases heq : other = name
    · exact heq ▸ h.known name old hold
    · rw [NameMap.get?_insert, if_neg heq] at hother
      exact h.known other b hother

end DescribesScope

namespace Describes

lemma enter (h : Describes view Γ layers) : Describes view ([] :: Γ) (.empty :: layers) :=
  .cons describesScope_empty h

/-- What a name resolves to in a context is what is found for it in the maps. -/
lemma findSome?_of_resolves (h : Describes view Γ layers) {name : String} {d : Declaration}
    (hd : Γ.Resolves name d) :
    ∃ b, layers.findSome? (·.get? name) = some b ∧ view b = some (d.kind, d.ty) := by
  induction hd generalizing layers with
  | here declared =>
    obtain _ | ⟨hscope, _⟩ := h
    obtain ⟨b, hb, hview⟩ := hscope.declared _ declared
    exact ⟨b, by simp [hb], hview⟩
  | outward unknown _ ih =>
    obtain _ | ⟨hscope, houter⟩ := h
    obtain ⟨b, hb, hview⟩ := ih houter
    exact ⟨b, by simp [(hscope.get?_eq_none_iff _).mpr unknown, hb], hview⟩

/-- What is found for a name in the maps is what the name resolves to. -/
lemma resolves_of_findSome? (h : Describes view Γ layers) {name : String} {b : β}
    (hb : layers.findSome? (·.get? name) = some b) :
    ∃ d, Γ.Resolves name d ∧ view b = some (d.kind, d.ty) := by
  induction h with
  | nil => simp at hb
  | @cons scope names Γ layers hscope _ ih =>
    rw [List.findSome?_cons] at hb
    cases hname : names.get? name with
    | none =>
      simp only [hname] at hb
      obtain ⟨d, hd, hview⟩ := ih hb
      exact ⟨d, .outward ((hscope.get?_eq_none_iff name).mp hname) hd, hview⟩
    | some b' =>
      simp only [hname, Option.some.injEq] at hb
      subst hb
      obtain ⟨d, hd, rfl⟩ := hscope.known name b' hname
      obtain ⟨b, hb, hview⟩ := hscope.declared d hd
      rw [hname, Option.some.injEq] at hb
      exact ⟨d, .here hd, hb ▸ hview⟩

/-- A definition of the innermost scope. -/
lemma declare {Δ : Context} {top : NameMap β} {d : Declaration} {b : β}
    (h : Describes view Γ (top :: layers)) (hd : Γ.Declares d Δ)
    (hb : view b = some (d.kind, d.ty)) :
    Describes view Δ (top.insert d.name b :: layers) := by
  obtain ⟨unknown⟩ := hd
  obtain _ | ⟨hscope, houter⟩ := h
  exact .cons (hscope.insert unknown hb) houter

/-- A new value of the kind and type of the old one, in the topmost map that has the name. -/
lemma replaceFirst (h : Describes view Γ layers) {name : String} {old new : β}
    (hold : layers.findSome? (·.get? name) = some old) (hview : view new = view old) :
    Describes view Γ (ScopeTree.replaceFirst name new layers) := by
  induction h with
  | nil => exact .nil
  | @cons scope names Γ layers hscope houter ih =>
    rw [List.findSome?_cons] at hold
    cases hname : names.get? name with
    | none =>
      simp only [hname] at hold
      rw [ScopeTree.replaceFirst_of_none hname]
      exact .cons hscope (ih hold)
    | some b =>
      simp only [hname, Option.some.injEq] at hold
      subst hold
      rw [ScopeTree.replaceFirst_of_some hname]
      exact .cons (hscope.replace hname hview) houter

end Describes

end Describes

end Context

end BlockLang
