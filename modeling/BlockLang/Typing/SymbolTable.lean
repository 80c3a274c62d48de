import BlockLang.Fault.Basic
import BlockLang.Scope.ScopeTree
import BlockLang.Typing.Ty

/-!
# The symbols of a program

A `SymbolTable` knows which names are defined where, with the kind and the type of each.  Scopes
that are left stay in it, so that each scope of a program has a number of its own.
-/

namespace BlockLang

/-- What is known about a defined name. -/
structure Symbol where
  name : String
  kind : BindingKind
  /-- The type, unless the definition itself is at fault. -/
  ty : Option Ty
  line : Nat
  deriving DecidableEq, Repr, Inhabited

/-- The symbols of nested scopes. -/
abbrev SymbolTable := ScopeTree Symbol

namespace SymbolTable

/-- Define a symbol in the current scope, where its name must be new. -/
def define (table : SymbolTable) (symbol : Symbol) : Except Fault SymbolTable :=
  if table.here.contains symbol.name then
    .error (.duplicateDefinition symbol.name symbol.line)
  else .ok (table.insert symbol.name symbol)

end SymbolTable

end BlockLang
