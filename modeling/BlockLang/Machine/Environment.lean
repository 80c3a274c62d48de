import BlockLang.Fault.Basic
import BlockLang.Machine.Value
import BlockLang.Scope.ScopeTree

/-!
# Environments

An `Environment` is the stack of frames of a running program.  Each frame binds names to values;
a frame is destroyed when it is left, and the root frame stays.
-/

namespace BlockLang

/-- A name's value, and whether it can be assigned to. -/
structure Binding where
  kind : BindingKind
  value : Value
  deriving DecidableEq, Repr, Inhabited

/-- The frames of a running program. -/
abbrev Environment := ScopeTree Binding

namespace Environment

/-- The number of frames, the root included. -/
def depth (env : Environment) : Nat :=
  env.scopes.size

/-- Leave the innermost frame and destroy it. -/
def exit (env : Environment) : Environment :=
  env.leaveAndDrop

/-- Bind a name in the innermost frame, in place of any binding that it had there. -/
def define (env : Environment) (name : String) (kind : BindingKind) (value : Value) :
    Environment :=
  env.insert name ⟨kind, value⟩

/-- The nearest binding of a name. -/
def lookup (env : Environment) (name : String) : Option Binding :=
  env.get? name

/-- Give a variable a new value, in the nearest frame that binds it. -/
def assign (env : Environment) (name : String) (value : Value) (line : Nat) :
    Except Fault Environment :=
  match env.find? name with
  | none => .error (.undefinedVariable name line)
  | some (frame, binding) =>
    match binding.kind with
    | .var => .ok (env.insertAt frame name ⟨.var, value⟩)
    | .const => .error (.assignToConst name line)

end Environment

end BlockLang
