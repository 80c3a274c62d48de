import BlockLang.Attempt
import BlockLang.Fault.Basic
import BlockLang.Proofs.Layout.WellFormed
import BlockLang.Scope.ScopeTree

/-!
# Other names and other lines

A `Relabelling` gives the names of constants and variables other names, different ones to
different names, and the lines other numbers.  It acts on programs, on faults and on nested
scopes.  The names of types are words of the language, and stay.

The lines of a program are erased by the relabelling that keeps the names and sets all lines to
`0` (`Program.relabel_erasing`), and a program stays what it is by the one that keeps names and
lines (`Program.relabel_identity`).
-/

namespace BlockLang

/-- New names for the old ones, and new lines. -/
structure Relabelling where
  name : String → String
  line : Nat → Nat
  name_injective : Function.Injective name

/-- All names stay, and the lines are other ones. -/
def Relabelling.lines (f : Nat → Nat) : Relabelling :=
  ⟨id, f, Function.injective_id⟩

/-- All lines are `0`. -/
def Relabelling.erasing : Relabelling :=
  .lines fun _ => 0

/-- All names and lines stay. -/
def Relabelling.identity : Relabelling :=
  .lines id

variable (r : Relabelling)

/-! ## Programs -/

def Ident.relabel (ident : Ident) : Ident :=
  ⟨r.name ident.name, r.line ident.line⟩

/-- The name of a type stays. -/
def Ident.relabelType (ident : Ident) : Ident :=
  ⟨ident.name, r.line ident.line⟩

def Literal.relabel : Literal → Literal
  | .int value line => .int value (r.line line)
  | .float value line => .float value (r.line line)
  | .bool value line => .bool value (r.line line)
  | .char value line => .char value (r.line line)

mutual

def Expr.relabel : Expr → Expr
  | .literal value => .literal (value.relabel r)
  | .name ident => .name (ident.relabel r)
  | .unary op operand line => .unary op operand.relabel (r.line line)
  | .binary op left right line => .binary op left.relabel right.relabel (r.line line)
  | .block body line => .block (Stmt.relabelAll body) (r.line line)

def Stmt.relabel : Stmt → Stmt
  | .constDef name ty value line =>
    .constDef (name.relabel r) (ty.map (Ident.relabelType r)) value.relabel (r.line line)
  | .varDef name ty value line =>
    .varDef (name.relabel r) (ty.map (Ident.relabelType r)) value.relabel (r.line line)
  | .varDecl name ty line =>
    .varDecl (name.relabel r) (ty.map (Ident.relabelType r)) (r.line line)
  | .assign target value line => .assign (target.relabel r) value.relabel (r.line line)
  | .print value line => .print value.relabel (r.line line)
  | .ifElse test thenBlock elseBlock line =>
    .ifElse test.relabel (Stmt.relabelAll thenBlock) (Stmt.relabelAll elseBlock) (r.line line)
  | .whileLoop test body line => .whileLoop test.relabel (Stmt.relabelAll body) (r.line line)
  | .breakLoop line => .breakLoop (r.line line)
  | .continueLoop line => .continueLoop (r.line line)
  | .expr value => .expr value.relabel

def Stmt.relabelAll : List Stmt → List Stmt
  | [] => []
  | first :: rest => first.relabel :: Stmt.relabelAll rest

end

def Program.relabel (program : Program) : Program :=
  ⟨Stmt.relabelAll r program.body⟩

lemma Literal.relabel_erasing (value : Literal) : value.relabel .erasing = value.eraseLine := by
  cases value <;> rfl

lemma Ident.relabelType_erasing (ty : Option Ident) :
    ty.map (Ident.relabelType .erasing) = ty.map Ident.eraseLine := by
  cases ty <;> rfl

mutual

lemma Expr.relabel_erasing : ∀ e : Expr, e.relabel .erasing = e.eraseLines
  | .literal value => by rw [Expr.relabel, Expr.eraseLines, value.relabel_erasing]
  | .name ident => rfl
  | .unary op operand line => by
    rw [Expr.relabel, Expr.eraseLines, operand.relabel_erasing]
    rfl
  | .binary op left right line => by
    rw [Expr.relabel, Expr.eraseLines, left.relabel_erasing, right.relabel_erasing]
    rfl
  | .block body line => by
    rw [Expr.relabel, Expr.eraseLines, Stmt.relabelAll_erasing body]
    rfl

lemma Stmt.relabel_erasing : ∀ s : Stmt, s.relabel .erasing = s.eraseLines
  | .constDef name ty value line => by
    rw [Stmt.relabel, Stmt.eraseLines, value.relabel_erasing, Ident.relabelType_erasing]
    rfl
  | .varDef name ty value line => by
    rw [Stmt.relabel, Stmt.eraseLines, value.relabel_erasing, Ident.relabelType_erasing]
    rfl
  | .varDecl name ty line => by
    rw [Stmt.relabel, Stmt.eraseLines, Ident.relabelType_erasing]
    rfl
  | .assign target value line => by
    rw [Stmt.relabel, Stmt.eraseLines, value.relabel_erasing]
    rfl
  | .print value line => by
    rw [Stmt.relabel, Stmt.eraseLines, value.relabel_erasing]
    rfl
  | .ifElse test thenBlock elseBlock line => by
    rw [Stmt.relabel, Stmt.eraseLines, test.relabel_erasing, Stmt.relabelAll_erasing thenBlock,
      Stmt.relabelAll_erasing elseBlock]
    rfl
  | .whileLoop test body line => by
    rw [Stmt.relabel, Stmt.eraseLines, test.relabel_erasing, Stmt.relabelAll_erasing body]
    rfl
  | .breakLoop line => rfl
  | .continueLoop line => rfl
  | .expr value => by rw [Stmt.relabel, Stmt.eraseLines, value.relabel_erasing]

lemma Stmt.relabelAll_erasing : ∀ body : List Stmt,
    Stmt.relabelAll .erasing body = Stmt.eraseAllLines body
  | [] => rfl
  | first :: rest => by
    rw [Stmt.relabelAll, Stmt.eraseAllLines, first.relabel_erasing, Stmt.relabelAll_erasing rest]

end

/-- The lines of a program are erased by a relabelling. -/
lemma Program.relabel_erasing (program : Program) :
    program.relabel .erasing = program.eraseLines :=
  congrArg Program.mk (Stmt.relabelAll_erasing program.body)

lemma Ident.relabelType_identity (ty : Option Ident) :
    ty.map (Ident.relabelType .identity) = ty := by
  cases ty <;> rfl

mutual

lemma Expr.relabel_identity : ∀ e : Expr, e.relabel .identity = e
  | .literal value => by cases value <;> rfl
  | .name _ => rfl
  | .unary _ operand _ => by
    rw [Expr.relabel, operand.relabel_identity]
    rfl
  | .binary _ left right _ => by
    rw [Expr.relabel, left.relabel_identity, right.relabel_identity]
    rfl
  | .block body _ => by
    rw [Expr.relabel, Stmt.relabelAll_identity body]
    rfl

lemma Stmt.relabel_identity : ∀ s : Stmt, s.relabel .identity = s
  | .constDef _ _ value _ | .varDef _ _ value _ => by
    rw [Stmt.relabel, value.relabel_identity, Ident.relabelType_identity]
    rfl
  | .varDecl _ _ _ => by
    rw [Stmt.relabel, Ident.relabelType_identity]
    rfl
  | .assign _ value _ | .print value _ => by
    rw [Stmt.relabel, value.relabel_identity]
    rfl
  | .expr value => by rw [Stmt.relabel, value.relabel_identity]
  | .ifElse test thenBlock elseBlock _ => by
    rw [Stmt.relabel, test.relabel_identity, Stmt.relabelAll_identity thenBlock,
      Stmt.relabelAll_identity elseBlock]
    rfl
  | .whileLoop test body _ => by
    rw [Stmt.relabel, test.relabel_identity, Stmt.relabelAll_identity body]
    rfl
  | .breakLoop _ | .continueLoop _ => rfl

lemma Stmt.relabelAll_identity : ∀ body : List Stmt, Stmt.relabelAll .identity body = body
  | [] => rfl
  | first :: rest => by
    rw [Stmt.relabelAll, first.relabel_identity, Stmt.relabelAll_identity rest]

end

lemma Program.relabel_identity (program : Program) : program.relabel .identity = program :=
  congrArg Program.mk (Stmt.relabelAll_identity program.body)

mutual

/-- Whether a variable has a type or a value depends on neither names nor lines. -/
lemma Expr.everywhere_declared_relabel : ∀ {e : Expr},
    (e.relabel r).Everywhere .declared ↔ e.Everywhere .declared
  | .literal _ | .name _ => Iff.rfl
  | .unary _ operand _ => and_congr Iff.rfl operand.everywhere_declared_relabel
  | .binary _ left right _ => and_congr Iff.rfl
      (and_congr left.everywhere_declared_relabel right.everywhere_declared_relabel)
  | .block _ _ => and_congr Iff.rfl Stmt.allEverywhere_declared_relabelAll

lemma Stmt.everywhere_declared_relabel : ∀ {s : Stmt},
    (s.relabel r).Everywhere .declared ↔ s.Everywhere .declared
  | .constDef _ _ value _ | .varDef _ _ value _ | .assign _ value _ | .print value _
  | .expr value => and_congr Iff.rfl value.everywhere_declared_relabel
  | .varDecl _ ty _ => by
    cases ty <;> exact Iff.rfl
  | .ifElse test _ _ _ => and_congr Iff.rfl (and_congr test.everywhere_declared_relabel
      (and_congr Stmt.allEverywhere_declared_relabelAll Stmt.allEverywhere_declared_relabelAll))
  | .whileLoop test _ _ => and_congr Iff.rfl (and_congr test.everywhere_declared_relabel
      Stmt.allEverywhere_declared_relabelAll)
  | .breakLoop _ | .continueLoop _ => Iff.rfl

lemma Stmt.allEverywhere_declared_relabelAll : ∀ {body : List Stmt},
    Stmt.AllEverywhere .declared (Stmt.relabelAll r body) ↔ Stmt.AllEverywhere .declared body
  | [] => Iff.rfl
  | first :: _ => and_congr first.everywhere_declared_relabel
      Stmt.allEverywhere_declared_relabelAll

end

/-! ## Faults -/

mutual

/-- A fault about the same thing in a relabelled program. -/
def Fault.relabel : Fault → Fault
  | .illegalCharacter ch line => .illegalCharacter ch (r.line line)
  | .unterminatedComment line => .unterminatedComment (r.line line)
  | .unterminatedChar line => .unterminatedChar (r.line line)
  | .unexpectedToken expected got line => .unexpectedToken expected got (r.line line)
  | .invalidLiteral kind text line => .invalidLiteral kind text (r.line line)
  | .constNotLiteral name line => .constNotLiteral (r.name name) (r.line line)
  | .missingTypeOrValue name line => .missingTypeOrValue (r.name name) (r.line line)
  | .binaryMismatch op left right line => .binaryMismatch op left right (r.line line)
  | .unaryMismatch op operand line => .unaryMismatch op operand (r.line line)
  | .undefinedName name line => .undefinedName (r.name name) (r.line line)
  | .assignToConst name line => .assignToConst (r.name name) (r.line line)
  | .typeMismatch name expected got line => .typeMismatch (r.name name) expected got (r.line line)
  | .conditionNotBool construct got line => .conditionNotBool construct got (r.line line)
  | .duplicateDefinition name line => .duplicateDefinition (r.name name) (r.line line)
  | .unknownType name line => .unknownType name (r.line line)
  | .loopControlOutsideLoop keyword line => .loopControlOutsideLoop keyword (r.line line)
  | .blockWithoutValue line => .blockWithoutValue (r.line line)
  | .typeErrors faults => .typeErrors (Fault.relabelAll faults)
  | .undefinedVariable name line => .undefinedVariable (r.name name) (r.line line)
  | .divisionByZero line => .divisionByZero (r.line line)
  | .integerOverflow op line => .integerOverflow op (r.line line)
  | .operandMismatch op operands line => .operandMismatch op operands (r.line line)
  | .noValue what line => .noValue what (r.line line)
  | .outputFailed reason => .outputFailed reason

/-- The faults of a collection, each for itself and in the same order. -/
def Fault.relabelAll : List Fault → List Fault
  | [] => []
  | first :: rest => first.relabel :: Fault.relabelAll rest

end

lemma Fault.relabelAll_eq_map (faults : List Fault) :
    Fault.relabelAll r faults = faults.map (Fault.relabel r) := by
  induction faults with
  | nil => rfl
  | cons first rest ih => rw [Fault.relabelAll, ih, List.map_cons]

mutual

lemma Fault.relabel_identity : ∀ fault : Fault, fault.relabel .identity = fault
  | .typeErrors faults => congrArg Fault.typeErrors (Fault.relabelAll_identity faults)
  | .illegalCharacter .. | .unterminatedComment .. | .unterminatedChar .. | .unexpectedToken ..
  | .invalidLiteral .. | .constNotLiteral .. | .missingTypeOrValue .. | .binaryMismatch ..
  | .unaryMismatch .. | .undefinedName .. | .assignToConst .. | .typeMismatch ..
  | .conditionNotBool .. | .duplicateDefinition .. | .unknownType .. | .loopControlOutsideLoop ..
  | .blockWithoutValue .. | .undefinedVariable .. | .divisionByZero .. | .integerOverflow ..
  | .operandMismatch .. | .noValue .. | .outputFailed .. => rfl

lemma Fault.relabelAll_identity : ∀ faults : List Fault, Fault.relabelAll .identity faults = faults
  | [] => rfl
  | first :: rest => by
    rw [Fault.relabelAll, first.relabel_identity, Fault.relabelAll_identity rest]

end

/-- A fault without its lines. -/
def Fault.eraseLines (fault : Fault) : Fault :=
  fault.relabel .erasing

/-- How an activity ends that meets the faults of a relabelled program. -/
def Outcome.mapFault {α ε ε' : Type} (f : ε → ε') : Outcome ε α → Outcome ε' α
  | .done value => .done value
  | .failed fault => .failed (f fault)
  | .unfinished => .unfinished

/-! ## Nested scopes -/

variable {α β : Type} (f : α → β)

/-- Other keys and other values. -/
def NameMap.relabel (m : NameMap α) : NameMap β :=
  ⟨m.entries.map fun (key, value) => (r.name key, f value)⟩

/-- Other keys and other values in each scope. -/
def ScopeTree.relabel (t : ScopeTree α) : ScopeTree β :=
  ⟨t.scopes.map fun scope => ⟨scope.parent, scope.names.relabel r f⟩, t.current⟩

namespace NameMap

lemma get?_relabel (m : NameMap α) (name : String) :
    (m.relabel r f).get? (r.name name) = (m.get? name).map f := by
  obtain ⟨entries⟩ := m
  simp only [get?, relabel]
  induction entries with
  | nil => rfl
  | cons entry rest ih =>
    obtain ⟨key, value⟩ := entry
    rw [List.map_cons, List.lookup_cons, List.lookup_cons]
    by_cases hkey : name = key
    · subst hkey
      simp
    · have hne : (name == key) = false := by simpa using hkey
      have hne' : (r.name name == r.name key) = false := by
        simpa using fun h => hkey (r.name_injective h)
      simp only [hne, hne']
      exact ih

lemma insert_relabel (m : NameMap α) (name : String) (value : α) :
    (m.relabel r f).insert (r.name name) (f value) = (m.insert name value).relabel r f := by
  obtain ⟨entries⟩ := m
  simp only [insert, relabel, NameMap.mk.injEq]
  induction entries with
  | nil => rfl
  | cons entry rest ih =>
    obtain ⟨key, old⟩ := entry
    rw [List.map_cons, insertEntry, insertEntry]
    by_cases hkey : key = name
    · subst hkey
      simp
    · have hkey' : ¬ r.name key = r.name name := fun h => hkey (r.name_injective h)
      rw [if_neg hkey, if_neg hkey', List.map_cons, ih]

end NameMap

namespace ScopeTree

lemma getElem?_relabel (t : ScopeTree α) (id : Nat) : (t.relabel r f).scopes[id]? =
    t.scopes[id]?.map fun scope => ⟨scope.parent, scope.names.relabel r f⟩ :=
  Array.getElem?_map

lemma relabel_root : (root : ScopeTree α).relabel r f = root := by
  simp [root, relabel, NameMap.relabel, NameMap.empty]

/-- Scopes whose values stay are the same scopes. -/
lemma relabel_identity {f : α → α} (h : ∀ a, f a = a) (t : ScopeTree α) :
    t.relabel .identity f = t := by
  have hvalues : f = id := funext h
  have hentries : (fun entry : String × α => (Relabelling.identity.name entry.1, f entry.2)) = id :=
    hvalues ▸ rfl
  have hscopes : (fun scope : Scope α =>
      (⟨scope.parent, scope.names.relabel .identity f⟩ : Scope α)) = id := by
    funext scope
    rw [NameMap.relabel, hentries, List.map_id]
    rfl
  rw [relabel, hscopes, Array.map_id]

lemma relabel_enter (t : ScopeTree α) : (t.relabel r f).enter = t.enter.relabel r f := by
  simp [enter, relabel, NameMap.relabel, NameMap.empty]

lemma parent?_relabel (t : ScopeTree α) : (t.relabel r f).parent? = t.parent? := by
  rw [parent?, parent?, getElem?_relabel]
  change (t.scopes[t.current]?.map _).bind _ = _
  rw [Option.bind_map]
  rfl

lemma relabel_leave (t : ScopeTree α) : (t.relabel r f).leave = t.leave.relabel r f := by
  rw [leave, leave, parent?_relabel]
  cases t.parent? <;> rfl

lemma relabel_leaveAndDrop (t : ScopeTree α) :
    (t.relabel r f).leaveAndDrop = t.leaveAndDrop.relabel r f := by
  rw [leaveAndDrop, leaveAndDrop, parent?_relabel]
  cases t.parent? with
  | none => rfl
  | some parent => simp [relabel]

lemma here_relabel (t : ScopeTree α) : (t.relabel r f).here = t.here.relabel r f := by
  rw [here, here, getElem?_relabel]
  change ((t.scopes[t.current]?.map _).map _).getD _ = _
  cases t.scopes[t.current]? <;> rfl

lemma insertAt_relabel (t : ScopeTree α) (id : Nat) (name : String) (value : α) :
    (t.relabel r f).insertAt id (r.name name) (f value) =
      (t.insertAt id name value).relabel r f := by
  simp only [insertAt, relabel, ScopeTree.mk.injEq, and_true]
  refine Array.ext_getElem? fun j => ?_
  rw [Array.getElem?_modify, Array.getElem?_map, Array.getElem?_map, Array.getElem?_modify]
  split
  · rw [Option.map_map, Option.map_map]
    congr 1
    funext scope
    simp only [Function.comp, NameMap.insert_relabel]
  · rfl

lemma insert_relabel (t : ScopeTree α) (name : String) (value : α) :
    (t.relabel r f).insert (r.name name) (f value) = (t.insert name value).relabel r f :=
  insertAt_relabel r f t t.current name value

lemma findFrom_relabel (t : ScopeTree α) (name : String) : ∀ (steps : Nat) (start : Option Nat),
    (t.relabel r f).findFrom (r.name name) steps start =
      (t.findFrom name steps start).map fun (id, value) => (id, f value)
  | 0, start => by cases start <;> rfl
  | steps + 1, none => rfl
  | steps + 1, some id => by
    rw [findFrom, findFrom, getElem?_relabel]
    cases t.scopes[id]? with
    | none => rfl
    | some scope =>
      simp only [Option.map_some, NameMap.get?_relabel]
      cases scope.names.get? name with
      | none => exact findFrom_relabel t name steps scope.parent
      | some value => rfl

lemma find?_relabel (t : ScopeTree α) (name : String) :
    (t.relabel r f).find? (r.name name) = (t.find? name).map fun (id, value) => (id, f value) := by
  have hsize : (t.relabel r f).scopes.size = t.scopes.size := Array.size_map
  rw [find?, find?, hsize]
  exact findFrom_relabel r f t name t.scopes.size (some t.current)

lemma get?_relabel (t : ScopeTree α) (name : String) :
    (t.relabel r f).get? (r.name name) = (t.get? name).map f := by
  rw [get?, get?, find?_relabel]
  cases t.find? name <;> rfl

end ScopeTree

end BlockLang
