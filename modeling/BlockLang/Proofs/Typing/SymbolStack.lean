import BlockLang.Proofs.Scope.Numbers
import BlockLang.Proofs.Scope.Stacks
import BlockLang.Typing.SymbolTable
import Mathlib.Data.List.Range

/-!
# Symbol tables as stacks of maps

A symbol table keeps the scopes that have been left.  Nothing of it is seen: whatever calls are made
on a new table, it answers them as a stack of maps does (`SymbolTable.symbols_as_stack`).

What is below the top of the stack is the way outwards from the current scope, and the scopes that
were left lie beside it.  That they stay beside it is a fact about numbers
(`BlockLang.ScopeTree.Abandoned`): a scope that is entered has the number of scopes that there have
been as its own, so that no number is given twice.
-/

namespace BlockLang

/-! ## What is asked of symbols -/

/-- What can be done with a symbol table. -/
inductive SymbolCall
  | enter
  | exit
  | define (symbol : Symbol)
  | lookup (name : String)

/-- What comes back from a call. -/
inductive SymbolAnswer
  /-- A scope was entered; `id` is its number, where scopes have numbers. -/
  | entered (id : Option Nat)
  | left
  /-- A definition, with the fault if it was refused. -/
  | defined (refusal : Option Fault)
  | found (symbol : Option Symbol)

namespace SymbolAnswer

/-- The number of the scope that was entered. -/
def id? : SymbolAnswer → Option Nat
  | entered id => id
  | _ => none

/-- The answer without the number of a scope. -/
def unnumbered : SymbolAnswer → SymbolAnswer
  | entered _ => entered none
  | answer => answer

end SymbolAnswer

namespace SymbolTable

/-- What a call does to a symbol table.  A definition that is refused changes nothing. -/
def perform : SymbolCall → StateM SymbolTable SymbolAnswer
  | .enter => do
    modify ScopeTree.enter
    return .entered (some (← get).current)
  | .exit => do
    modify ScopeTree.leave
    return .left
  | .define symbol =>
    Calls.unlessRefused (fun table => SymbolTable.define table symbol) .defined
  | .lookup name => return .found ((← get).get? name)

/-- What a new table answers to calls that are made one after the other. -/
def answers (calls : List SymbolCall) : List SymbolAnswer :=
  ((calls.mapM perform).run .root).1

/-- A new table behind calls that were made one after the other. -/
def after (calls : List SymbolCall) : SymbolTable :=
  ((calls.mapM perform).run .root).2

end SymbolTable

/-! ## Stacks of symbols -/

/-- The maps that the scopes of a program are. -/
abbrev SymbolStack := MapStack Symbol

namespace SymbolStack

/-- Define a symbol in the top map, where its name must be new. -/
def define (symbols : SymbolStack) (symbol : Symbol) : Except Fault SymbolStack :=
  if symbols.top.contains symbol.name then
    .error (.duplicateDefinition symbol.name symbol.line)
  else .ok (symbols.insert symbol.name symbol)

/-- What a call does to a stack of maps, which have no numbers.  A definition that is refused
changes nothing. -/
def perform : SymbolCall → StateM SymbolStack SymbolAnswer
  | .enter => do
    modify MapStack.enter
    return .entered none
  | .exit => do
    modify MapStack.leave
    return .left
  | .define symbol =>
    Calls.unlessRefused (fun symbols => define symbols symbol) .defined
  | .lookup name => return .found ((← get).get? name)

/-- What a stack that begins with one empty map answers to calls. -/
def answers (calls : List SymbolCall) : List SymbolAnswer :=
  ((calls.mapM perform).run .root).1

end SymbolStack

namespace SymbolTable

variable {table : SymbolTable} {symbols : SymbolStack}

/-! ## One call -/

/-- A definition is refused on both sides for the same reason, or it leads to scopes that go
together again. -/
lemma define_together (h : table.HasLayers symbols.maps) (symbol : Symbol) :
    Calls.Together
      (fun (table : SymbolTable) (symbols : SymbolStack) => table.HasLayers symbols.maps)
      (table.define symbol) (symbols.define symbol) := by
  have hhere : table.here = symbols.top := h.here_eq
  rw [SymbolTable.define, SymbolStack.define, hhere]
  split
  · exact rfl
  · exact h.insert symbol.name symbol

/-- A call gives the same answer on both sides, numbers apart, and leaves scopes that go
together. -/
lemma perform_lockstep (call : SymbolCall) (h : table.HasLayers symbols.maps) :
    ((perform call).run table).1.unnumbered = ((SymbolStack.perform call).run symbols).1 ∧
      ((perform call).run table).2.HasLayers ((SymbolStack.perform call).run symbols).2.maps := by
  cases call with
  | enter => exact ⟨rfl, h.enter⟩
  | exit => exact ⟨rfl, h.leave_maps⟩
  | define symbol =>
    obtain ⟨refusal, table', symbols', htable, hsymbols, h'⟩ :=
      Calls.unlessRefused_lockstep (f := fun table => SymbolTable.define table symbol)
        (g := fun symbols => SymbolStack.define symbols symbol) (define_together h symbol) h
        SymbolAnswer.defined SymbolAnswer.defined
    rw [perform, SymbolStack.perform, htable, hsymbols]
    exact ⟨rfl, h'⟩
  | lookup name => exact ⟨congrArg SymbolAnswer.found (h.get?_eq name), h⟩

/-! ## What a call does to the scopes -/

/-- A call enters a scope, which gets the number of scopes that there are, or it enters none: it
leaves one, gives the current one a new symbol, or does nothing. -/
inductive Changes (table : SymbolTable) : SymbolAnswer × SymbolTable → Prop
  | enter : Changes table (.entered (some table.scopes.size), table.enter)
  | leave : Changes table (.left, table.leave)
  | insert (symbol : Symbol) :
      Changes table (.defined none, table.insert symbol.name symbol)
  | nothing {answer : SymbolAnswer} (unnumbered : answer.id? = none) :
      Changes table (answer, table)

lemma changes_perform (call : SymbolCall) (table : SymbolTable) :
    Changes table ((perform call).run table) := by
  cases call with
  | enter => exact .enter
  | exit => exact .leave
  | define symbol =>
    rw [perform, StateT.run, Calls.unlessRefused, SymbolTable.define]
    by_cases hknown : table.here.contains symbol.name = true
    · rw [if_pos hknown]
      exact .nothing rfl
    · rw [if_neg hknown]
      exact .insert symbol
  | lookup name => exact .nothing rfl

lemma Changes.ordered {ending : SymbolAnswer × SymbolTable} (h : Changes table ending)
    (ordered : table.Ordered) : ending.2.Ordered := by
  cases h with
  | enter => exact ordered.enter
  | leave => exact ordered.leave
  | insert symbol => exact ordered.insertAt table.current symbol.name symbol
  | nothing _ => exact ordered

lemma Changes.abandoned {ending : SymbolAnswer × SymbolTable} {id : Nat}
    (h : Changes table ending) (ordered : table.Ordered) (left : table.Abandoned id) :
    ending.2.Abandoned id := by
  cases h with
  | enter => exact left.enter ordered
  | leave => exact left.leave
  | insert symbol => exact left.insertAt table.current symbol.name symbol
  | nothing _ => exact left

/-- A number that is given is that of the first scope behind those that there are. -/
lemma Changes.numbers {ending : SymbolAnswer × SymbolTable} (h : Changes table ending) :
    (ending.1.id? = some table.scopes.size ∧ ending.2.scopes.size = table.scopes.size + 1) ∨
      (ending.1.id? = none ∧ ending.2.scopes.size = table.scopes.size) := by
  cases h with
  | enter => exact .inl ⟨rfl, by simp [ScopeTree.enter]⟩
  | leave => exact .inr ⟨rfl, by rw [ScopeTree.scopes_leave]⟩
  | insert symbol => exact .inr ⟨rfl, ScopeTree.size_insertAt table table.current _ _⟩
  | nothing unnumbered => exact .inr ⟨unnumbered, rfl⟩

/-! ## Any number of calls -/

/-- The numbers that are given follow on the number of scopes that there are at the beginning. -/
lemma ids_eq_range (calls : List SymbolCall) (table : SymbolTable) :
    ∃ count, ((calls.mapM perform).run table).1.filterMap SymbolAnswer.id? =
      List.range' table.scopes.size count := by
  induction calls generalizing table with
  | nil => exact ⟨0, rfl⟩
  | cons call calls ih =>
    obtain ⟨count, hcount⟩ := ih ((perform call).run table).2
    simp only [List.mapM_cons, StateT.run_bind]
    show ∃ count, List.filterMap SymbolAnswer.id? (((perform call).run table).1 ::
      ((calls.mapM perform).run ((perform call).run table).2).1) = _
    rcases (changes_perform call table).numbers with ⟨hid, hsize⟩ | ⟨hid, hsize⟩
    · refine ⟨count + 1, ?_⟩
      rw [List.filterMap_cons_some hid, hcount, hsize, List.range'_succ]
    · refine ⟨count, ?_⟩
      rw [List.filterMap_cons_none hid, hcount, hsize]

lemma ordered_after (calls : List SymbolCall) : (after calls).Ordered :=
  Calls.mapM_keeps (fun call table => (changes_perform call table).ordered) calls
    ScopeTree.ordered_root

lemma after_append (past later : List SymbolCall) :
    after (past ++ later) = ((later.mapM perform).run (after past)).2 := by
  simp only [after, List.mapM_append, StateT.run_bind]
  rfl

/-- A scope that has been left is abandoned, whatever calls follow. -/
lemma abandoned_after {past later : List SymbolCall} (inner : (after past).parent? ≠ none) :
    (after (past ++ .exit :: later)).Abandoned (after past).current := by
  have hleft := ScopeTree.abandoned_leave (ordered_after past) inner
  rw [after_append, List.mapM_cons, StateT.run_bind]
  show ScopeTree.Abandoned ((later.mapM perform).run (after past).leave).2 _
  exact (Calls.mapM_keeps (I := fun table => table.Ordered ∧ table.Abandoned (after past).current)
    (fun call table h => ⟨(changes_perform call table).ordered h.1,
      (changes_perform call table).abandoned h.1 h.2⟩) later
    ⟨(ordered_after past).leave, hleft⟩).2

/-- To any calls a new table gives the answers of a stack of maps that begins with one empty map.
No two scopes have the same number, and no name is found in a scope that has been left before.  Each
scope lies in one with a smaller number, so that a look-up, which goes from one scope to the next
one outwards, comes to its end. -/
theorem symbols_as_stack (calls : List SymbolCall) :
    (answers calls).map SymbolAnswer.unnumbered = SymbolStack.answers calls ∧
    (0 :: (answers calls).filterMap SymbolAnswer.id?).Nodup ∧
    (∀ past later, calls = past ++ .exit :: later → (after past).parent? ≠ none →
      ∀ name owner symbol, (after calls).find? name = some (owner, symbol) →
        owner ≠ (after past).current) ∧
    (∀ id outer, (after calls).outer? id = some outer → outer < id) ∧
    (fun next : Option Nat => next.bind (after calls).outer?)^[(after calls).scopes.size]
      (some (after calls).current) = none := by
  have hordered := ordered_after calls
  refine ⟨?_, ?_, ?_, hordered.outer_lt, hordered.walk_ends hordered.current_lt⟩
  · exact (Calls.mapM_lockstep SymbolAnswer.unnumbered
      (fun call _ _ => perform_lockstep call) calls (s := .root) (t := .root)
      ScopeTree.hasLayers_root).1
  · obtain ⟨count, hcount⟩ := ids_eq_range calls .root
    have hids : (answers calls).filterMap SymbolAnswer.id? = List.range' 1 count := hcount
    rw [hids]
    show (List.range' 0 (count + 1)).Nodup
    exact List.nodup_range'
  · intro past later hcalls inner name owner symbol found
    subst hcalls
    exact (abandoned_after inner).ne_owner found

/-- Two scopes inside the outermost one, of which the first is left before the second is entered:
both define `x`, and between the two the `x` of the outermost scope is found again. -/
theorem symbols_as_stack_siblings :
    ∃ past later : List SymbolCall, (after past).parent? ≠ none ∧
      (answers (past ++ .exit :: later)).map SymbolAnswer.unnumbered =
        [.defined none, .entered none, .defined none, .left, .entered none,
          .found (some ⟨"x", .const, some .int, 1⟩), .defined none] ∧
      ∃ owner symbol, (after (past ++ .exit :: later)).find? "x" = some (owner, symbol) ∧
        owner ≠ (after past).current := by
  refine ⟨[.define ⟨"x", .const, some .int, 1⟩, .enter, .define ⟨"x", .var, some .bool, 2⟩],
    [.enter, .lookup "x", .define ⟨"x", .var, none, 4⟩], nofun, ?_⟩
  obtain ⟨hanswers, -, hleft, -⟩ := symbols_as_stack [.define ⟨"x", .const, some .int, 1⟩, .enter,
    .define ⟨"x", .var, some .bool, 2⟩, .exit, .enter, .lookup "x", .define ⟨"x", .var, none, 4⟩]
  exact ⟨hanswers.trans rfl, 2, ⟨"x", .var, none, 4⟩, rfl,
    hleft [.define ⟨"x", .const, some .int, 1⟩, .enter, .define ⟨"x", .var, some .bool, 2⟩]
      _ rfl nofun "x" 2 _ rfl⟩

end SymbolTable

end BlockLang
