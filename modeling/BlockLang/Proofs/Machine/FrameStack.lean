import BlockLang.Machine.Environment
import BlockLang.Proofs.Scope.Stacks

/-!
# Environments as stacks of maps

Whatever calls are made on a new environment, it answers them as a stack of maps does
(`Environment.frames_as_stack`).  A frame is a map, the innermost frame is the top one, and the
frames' numbers and links are never seen.

The reason is that the frames stay in a row: the innermost one is the last, and each frame lies in
the one with the preceding number.  So the frame that is destroyed when the innermost one is left is
that one, and the links lead through all frames from the last to the first.  Leaving the root frame,
which changes nothing, does no harm to this however often it is tried.
-/

namespace BlockLang

/-! ## What is asked of frames -/

/-- What can be done with frames. -/
inductive FrameCall
  | enter
  | exit
  | define (name : String) (kind : BindingKind) (value : Value)
  | assign (name : String) (value : Value) (line : Nat)
  | lookup (name : String)
  /-- Ask how many frames there are. -/
  | depth

/-- What comes back from a call. -/
inductive FrameAnswer
  | nothing
  /-- An assignment, with the fault if it was refused. -/
  | assigned (refusal : Option Fault)
  | found (binding : Option Binding)
  | counted (depth : Nat)

namespace Environment

/-- What a call does to an environment.  An assignment that is refused changes nothing. -/
def perform : FrameCall → StateM Environment FrameAnswer
  | .enter => do
    modify ScopeTree.enter
    return .nothing
  | .exit => do
    modify Environment.exit
    return .nothing
  | .define name kind value => do
    modify fun env => Environment.define env name kind value
    return .nothing
  | .assign name value line =>
    Calls.unlessRefused (fun env => Environment.assign env name value line) .assigned
  | .lookup name => return .found (Environment.lookup (← get) name)
  | .depth => return .counted (Environment.depth (← get))

/-- What a new environment answers to calls that are made one after the other. -/
def answers (calls : List FrameCall) : List FrameAnswer :=
  ((calls.mapM perform).run .root).1

/-- A new environment behind calls that were made one after the other. -/
def after (calls : List FrameCall) : Environment :=
  ((calls.mapM perform).run .root).2

/-- The innermost frame is the last one, and each frame lies in the one with the preceding
number. -/
structure InRow (env : Environment) : Prop where
  current_last : env.current + 1 = env.depth
  parents_eq : env.scopes.map (·.parent) = (Array.range env.depth).map Nat.ppred

end Environment

/-! ## Stacks of frames -/

/-- The maps that frames are. -/
abbrev FrameStack := MapStack Binding

namespace FrameStack

/-- Give a variable a new value in the topmost map that has its name. -/
def assign (frames : FrameStack) (name : String) (value : Value) (line : Nat) :
    Except Fault FrameStack :=
  match frames.get? name with
  | none => .error (.undefinedVariable name line)
  | some ⟨.const, _⟩ => .error (.assignToConst name line)
  | some ⟨.var, _⟩ => .ok (frames.update name ⟨.var, value⟩)

/-- What a call does to a stack of maps.  An assignment that is refused changes nothing. -/
def perform : FrameCall → StateM FrameStack FrameAnswer
  | .enter => do
    modify MapStack.enter
    return .nothing
  | .exit => do
    modify MapStack.leave
    return .nothing
  | .define name kind value => do
    modify fun frames => frames.insert name ⟨kind, value⟩
    return .nothing
  | .assign name value line =>
    Calls.unlessRefused (fun frames => assign frames name value line) .assigned
  | .lookup name => return .found ((← get).get? name)
  | .depth => return .counted (← get).maps.length

/-- What a stack that begins with one empty map answers to calls. -/
def answers (calls : List FrameCall) : List FrameAnswer :=
  ((calls.mapM perform).run .root).1

end FrameStack

/-! ## One call -/

namespace Environment

variable {env : Environment} {frames : FrameStack}

lemma lookup_eq (h : env.Stacked frames.maps) (name : String) :
    env.lookup name = frames.get? name :=
  h.hasLayers.get?_eq name

/-- An assignment is refused on both sides for the same reason, or it leads to frames that go
together again. -/
lemma assign_together (h : env.Stacked frames.maps) (name : String) (value : Value) (line : Nat) :
    Calls.Together (fun (env : Environment) (frames : FrameStack) => env.Stacked frames.maps)
      (env.assign name value line) (frames.assign name value line) := by
  have hlookup : (env.find? name).map (·.2) = frames.get? name := lookup_eq h name
  rw [Environment.assign, FrameStack.assign, ← hlookup]
  cases hfind : env.find? name with
  | none => exact rfl
  | some found =>
    obtain ⟨owner, ⟨kind, old⟩⟩ := found
    cases kind with
    | const => exact rfl
    | var =>
      show ScopeTree.Stacked _ (frames.update name ⟨.var, value⟩).maps
      rw [MapStack.maps_update]
      exact h.insertAt hfind ⟨.var, value⟩

/-- A call gives the same answer on both sides and leaves frames that go together. -/
lemma perform_lockstep (call : FrameCall) (h : env.Stacked frames.maps) :
    ((perform call).run env).1 = ((FrameStack.perform call).run frames).1 ∧
      ((perform call).run env).2.Stacked ((FrameStack.perform call).run frames).2.maps := by
  cases call with
  | enter => exact ⟨rfl, h.enter⟩
  | exit => exact ⟨rfl, h.leaveAndDrop_maps⟩
  | define name kind value => exact ⟨rfl, h.insert name ⟨kind, value⟩⟩
  | assign name value line =>
    obtain ⟨refusal, env', frames', henv, hframes, h'⟩ :=
      Calls.unlessRefused_lockstep (f := fun env => Environment.assign env name value line)
        (g := fun frames => FrameStack.assign frames name value line)
        (assign_together h name value line) h FrameAnswer.assigned FrameAnswer.assigned
    rw [perform, FrameStack.perform, henv, hframes]
    exact ⟨rfl, h'⟩
  | lookup name => exact ⟨congrArg FrameAnswer.found (lookup_eq h name), h⟩
  | depth => exact ⟨congrArg FrameAnswer.counted h.size_eq, h⟩

/-! ## Any number of calls -/

/-- Behind any calls there is a stack of maps that goes together with the environment and gave the
same answers. -/
lemma answers_lockstep (calls : List FrameCall) :
    answers calls = FrameStack.answers calls ∧
      ∃ frames : FrameStack, (after calls).Stacked frames.maps := by
  obtain ⟨hanswers, hstacked⟩ := Calls.mapM_lockstep id
    (R := fun (env : Environment) (frames : FrameStack) => env.Stacked frames.maps)
    (fun call _ _ => perform_lockstep call) calls (s := .root) (t := .root) ScopeTree.stacked_root
  rw [List.map_id] at hanswers
  exact ⟨hanswers, _, hstacked⟩

/-- To any calls a new environment gives the answers of a stack of maps that begins with one empty
map, and behind them the frames are in a row.

The environment and the stack share the operations of `NameMap`, so that agreeing says nothing about
these.  What a definition does is therefore said of the environment itself, with
`NameMap.get?_insert` behind it: the name that is defined is found with its new kind and value, and
every other name is found as before. -/
theorem frames_as_stack (calls : List FrameCall) :
    answers calls = FrameStack.answers calls ∧ (after calls).InRow ∧
      ∀ name kind value other, ((after calls).define name kind value).lookup other =
        if other = name then some ⟨kind, value⟩ else (after calls).lookup other := by
  obtain ⟨hanswers, frames, hstacked⟩ := answers_lockstep calls
  refine ⟨hanswers, ⟨hstacked.current_eq, hstacked.parents_eq⟩, fun name kind value other => ?_⟩
  have hdefined : ((after calls).define name kind value).Stacked
      (frames.insert name ⟨kind, value⟩).maps := hstacked.insert name ⟨kind, value⟩
  rw [lookup_eq hdefined, lookup_eq hstacked, MapStack.get?_insert]

end Environment

end BlockLang
