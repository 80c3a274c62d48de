/-!
# Finite maps from names

A `NameMap α` gives each of finitely many names a value.  It is a list of pairs in the order in
which the names were first inserted; inserting a name again replaces its value in place, so that
no name occurs twice.  `NameMap.get?` is the view through which the map is used.
-/

namespace BlockLang

/-- A finite map from names. -/
structure NameMap (α : Type) where
  entries : List (String × α)
  deriving DecidableEq, Repr, Inhabited

namespace NameMap

variable {α : Type}

/-- The map that holds no name. -/
def empty : NameMap α :=
  ⟨[]⟩

/-- The value of a name. -/
def get? (m : NameMap α) (name : String) : Option α :=
  m.entries.lookup name

/-- Whether a name has a value. -/
def contains (m : NameMap α) (name : String) : Bool :=
  (m.get? name).isSome

/-- Give a name a value in a list of pairs. -/
def insertEntry (name : String) (value : α) : List (String × α) → List (String × α)
  | [] => [(name, value)]
  | (key, old) :: rest =>
    if key = name then (name, value) :: rest else (key, old) :: insertEntry name value rest

/-- Give a name a value, in place of the one it had. -/
def insert (m : NameMap α) (name : String) (value : α) : NameMap α :=
  ⟨insertEntry name value m.entries⟩

@[simp] theorem get?_empty (name : String) : (empty : NameMap α).get? name = none := rfl

theorem lookup_insertEntry (name other : String) (value : α) (entries : List (String × α)) :
    (insertEntry name value entries).lookup other =
      if other = name then some value else entries.lookup other := by
  induction entries with
  | nil =>
    by_cases h : other = name
    · subst h; simp [insertEntry]
    · have hne : (other == name) = false := by simpa using h
      simp [insertEntry, List.lookup_cons, h, hne]
  | cons entry rest ih =>
    obtain ⟨key, old⟩ := entry
    by_cases hkey : key = name
    · subst hkey
      by_cases h : other = key
      · subst h; simp [insertEntry]
      · have hne : (other == key) = false := by simpa using h
        simp [insertEntry, List.lookup_cons, h, hne]
    · simp only [insertEntry, hkey, if_false, List.lookup_cons]
      by_cases h : other = key
      · subst h; simp [hkey]
      · have hne : (other == key) = false := by simpa using h
        simp [hne, ih]

/-- Inserting a name changes its value and no other. -/
theorem get?_insert (m : NameMap α) (name other : String) (value : α) :
    (m.insert name value).get? other = if other = name then some value else m.get? other :=
  lookup_insertEntry name other value m.entries

@[simp] theorem get?_insert_self (m : NameMap α) (name : String) (value : α) :
    (m.insert name value).get? name = some value := by
  simp [get?_insert]

end NameMap

end BlockLang
