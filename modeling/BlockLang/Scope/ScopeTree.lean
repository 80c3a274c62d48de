import BlockLang.Scope.NameMap

/-!
# Nested scopes

A `ScopeTree` is a collection of scopes, each with the names that it defines and the scope around
it, and a current scope.  Scopes are numbered in the order in which they were entered, the
outermost one being number 0.  A name is looked for in the current scope and then in the scopes
around it, from the inside to the outside.

Two uses differ in what becomes of a scope that is left.  The checker keeps it
(`ScopeTree.leave`), the interpreter destroys it (`ScopeTree.leaveAndDrop`).
-/

namespace BlockLang

/-- What a definition makes. -/
inductive BindingKind
  /-- A name that keeps its first value. -/
  | const
  /-- A name that can be assigned to. -/
  | var
  deriving DecidableEq, Repr, Inhabited

/-- One scope: the number of the scope around it, and the names that it defines. -/
structure Scope (α : Type) where
  parent : Option Nat
  names : NameMap α
  deriving DecidableEq, Repr, Inhabited

/-- Nested scopes. -/
structure ScopeTree (α : Type) where
  scopes : Array (Scope α)
  current : Nat
  deriving DecidableEq, Repr

namespace ScopeTree

variable {α : Type}

/-- The outermost scope alone, without names. -/
def root : ScopeTree α :=
  ⟨#[⟨none, .empty⟩], 0⟩

instance : Inhabited (ScopeTree α) := ⟨root⟩

/-- The scope around the current one. -/
def parent? (t : ScopeTree α) : Option Nat :=
  t.scopes[t.current]?.bind (·.parent)

/-- Enter a new scope inside the current one. -/
def enter (t : ScopeTree α) : ScopeTree α :=
  ⟨t.scopes.push ⟨some t.current, .empty⟩, t.scopes.size⟩

/-- Return to the scope around the current one, which stays in the collection.  The outermost
scope is never left. -/
def leave (t : ScopeTree α) : ScopeTree α :=
  match t.parent? with
  | some parent => ⟨t.scopes, parent⟩
  | none => t

/-- Return to the scope around the current one and take the last scope out of the collection.
The outermost scope is never left. -/
def leaveAndDrop (t : ScopeTree α) : ScopeTree α :=
  match t.parent? with
  | some parent => ⟨t.scopes.pop, parent⟩
  | none => t

/-- The names that the current scope defines itself. -/
def here (t : ScopeTree α) : NameMap α :=
  (t.scopes[t.current]?.map (·.names)).getD .empty

/-- Give a name a value in the scope with a given number. -/
def insertAt (t : ScopeTree α) (id : Nat) (name : String) (value : α) : ScopeTree α :=
  ⟨t.scopes.modify id fun scope => ⟨scope.parent, scope.names.insert name value⟩, t.current⟩

/-- Give a name a value in the current scope. -/
def insert (t : ScopeTree α) (name : String) (value : α) : ScopeTree α :=
  t.insertAt t.current name value

/-- Look for a name in a scope and at most `steps` scopes in all, going outwards. -/
def findFrom (t : ScopeTree α) (name : String) : Nat → Option Nat → Option (Nat × α)
  | 0, _ => none
  | _, none => none
  | steps + 1, some id =>
    match t.scopes[id]? with
    | none => none
    | some scope =>
      match scope.names.get? name with
      | some value => some (id, value)
      | none => t.findFrom name steps scope.parent

/-- The nearest scope that defines a name, and the value there. -/
def find? (t : ScopeTree α) (name : String) : Option (Nat × α) :=
  t.findFrom name t.scopes.size (some t.current)

/-- The nearest value of a name. -/
def get? (t : ScopeTree α) (name : String) : Option α :=
  (t.find? name).map (·.2)

/-! ## Entering and leaving -/

@[simp] theorem parent?_enter (t : ScopeTree α) : t.enter.parent? = some t.current := by
  simp [enter, parent?]

@[simp] theorem parent?_root : (root : ScopeTree α).parent? = none := rfl

/-- A scope that is left stays, and the scope around it is current again. -/
theorem leave_enter (t : ScopeTree α) :
    t.enter.leave = ⟨t.scopes.push ⟨some t.current, .empty⟩, t.current⟩ := by
  rw [leave, parent?_enter]
  rfl

/-- Leaving and dropping a scope undoes entering it. -/
@[simp] theorem leaveAndDrop_enter (t : ScopeTree α) : t.enter.leaveAndDrop = t := by
  rw [leaveAndDrop, parent?_enter]
  simp [enter]

@[simp] theorem leave_root : (root : ScopeTree α).leave = root := rfl

@[simp] theorem leaveAndDrop_root : (root : ScopeTree α).leaveAndDrop = root := rfl

/-- A new scope defines no names. -/
@[simp] theorem here_enter (t : ScopeTree α) : t.enter.here = .empty := by
  simp [enter, here]

@[simp] theorem current_insertAt (t : ScopeTree α) (id : Nat) (name : String) (value : α) :
    (t.insertAt id name value).current = t.current := rfl

@[simp] theorem size_insertAt (t : ScopeTree α) (id : Nat) (name : String) (value : α) :
    (t.insertAt id name value).scopes.size = t.scopes.size := by
  simp [insertAt]

/-- Inserting a name changes the names of the current scope as a map does. -/
theorem here_insert {t : ScopeTree α} (h : t.current < t.scopes.size) (name : String)
    (value : α) : (t.insert name value).here = t.here.insert name value := by
  simp [insert, insertAt, here, Array.getElem_modify, h]

end ScopeTree

end BlockLang
