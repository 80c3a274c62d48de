import BlockLang.Proofs.Program.Lines
import BlockLang.Proofs.Typing.Silent

/-!
# What the checker reports

A fault of typing is one of ten sentences about names, types, operators and keywords.  The checker
takes the line of each fault from the node that it visits, or from a name that the node uses, and
the names in it are those of the node (`Fault.OfTyping`).  On a program that stands on some lines
it therefore finds only faults that point at these lines (`Program.pointsTo_of_check`).

`TypeChecker.Blames lines P x` says so of one activity.  There is a lemma for each way in which
activities are put together and for each rule of a single node, and then the checker is followed
over the tree.
-/

namespace BlockLang

/-- The single faults of which a fault consists. -/
def Fault.elements : Fault → List Fault
  | .typeErrors faults => faults
  | fault => [fault]

/-- A fault of typing at a node on one of the lines, which mentions names with the property
`P`. -/
inductive Fault.OfTyping (lines : List Nat) (P : String → Prop) : Fault → Prop
  | binaryMismatch {line : Nat} (op : BinOp) (left right : Ty) (hline : line ∈ lines) :
    OfTyping lines P (.binaryMismatch op.symbol left.name right.name line)
  | unaryMismatch {line : Nat} (op : UnaryOp) (operand : Ty) (hline : line ∈ lines) :
    OfTyping lines P (.unaryMismatch op.symbol operand.name line)
  | undefinedName {name : String} {line : Nat} (hname : P name) (hline : line ∈ lines) :
    OfTyping lines P (.undefinedName name line)
  | assignToConst {name : String} {line : Nat} (hname : P name) (hline : line ∈ lines) :
    OfTyping lines P (.assignToConst name line)
  | typeMismatch {name : String} {line : Nat} (expected got : Ty) (hname : P name)
    (hline : line ∈ lines) : OfTyping lines P (.typeMismatch name expected.name got.name line)
  | conditionNotBool {construct : String} {line : Nat} (got : Ty)
    (hconstruct : construct ∈ ["if", "while"]) (hline : line ∈ lines) :
    OfTyping lines P (.conditionNotBool construct got.name line)
  | duplicateDefinition {name : String} {line : Nat} (hname : P name) (hline : line ∈ lines) :
    OfTyping lines P (.duplicateDefinition name line)
  | unknownType {name : String} {line : Nat} (hname : P name) (hline : line ∈ lines) :
    OfTyping lines P (.unknownType name line)
  | loopControlOutsideLoop {keyword : String} {line : Nat}
    (hkeyword : keyword ∈ ["break", "continue"]) (hline : line ∈ lines) :
    OfTyping lines P (.loopControlOutsideLoop keyword line)
  | blockWithoutValue {line : Nat} (hline : line ∈ lines) :
    OfTyping lines P (.blockWithoutValue line)

lemma Fault.OfTyping.pointsTo {lines : List Nat} {P : String → Prop} {fault : Fault}
    (h : fault.OfTyping lines P) : fault.PointsTo lines := by
  cases h <;> exact ⟨_, ‹_›, rfl⟩

namespace TypeChecker

variable {lines : List Nat} {P : String → Prop} {line : Nat} {α β : Type} {x : Checking α}
  {f : α → Checking β}

/-- The activity adds only faults at the lines, about names with the property. -/
def Blames (lines : List Nat) (P : String → Prop) (x : Checking α) : Prop :=
  ∀ c : TypeChecker, (∀ fault ∈ c.errors, fault.OfTyping lines P) →
    ∀ fault ∈ (x.run c).2.errors, fault.OfTyping lines P

lemma blames_pure (a : α) : Blames lines P (pure a) :=
  fun _ hc => hc

lemma Blames.bind (h : Blames lines P x) (h' : ∀ a, Blames lines P (f a)) :
    Blames lines P (x >>= f) :=
  fun c hc => h' (x.run c).1 (x.run c).2 (h c hc)

lemma blames_get : Blames lines P get :=
  fun _ hc => hc

lemma blames_modify {change : TypeChecker → TypeChecker} (h : ∀ c, (change c).errors = c.errors) :
    Blames lines P (modify change) := by
  intro c hc
  change ∀ fault ∈ (change c).errors, _
  rwa [h]

lemma blames_report {fault : Fault} (hfault : fault.OfTyping lines P) :
    Blames lines P (report fault) :=
  fun _ hc => List.forall_mem_append.mpr ⟨hc, List.forall_mem_singleton.mpr hfault⟩

/-- A fault that leaves a node without a type. -/
lemma blames_report_bind {fault : Fault} (hfault : fault.OfTyping lines P) (a : α) :
    Blames lines P (report fault >>= fun _ => pure a) :=
  (blames_report hfault).bind fun _ => blames_pure a

lemma blames_setLoopDepth (depth : Nat) : Blames lines P (setLoopDepth depth) :=
  blames_modify fun _ => rfl

lemma blames_enterScope : Blames lines P enterScope :=
  blames_modify fun _ => rfl

lemma blames_leaveScope : Blames lines P leaveScope :=
  blames_modify fun _ => rfl

lemma blames_enterLoop : Blames lines P enterLoop :=
  blames_modify fun _ => rfl

lemma blames_leaveLoop : Blames lines P leaveLoop :=
  blames_modify fun _ => rfl

lemma Blames.inScope (h : Blames lines P x) : Blames lines P (inScope x) :=
  blames_enterScope.bind fun _ => h.bind fun a => blames_leaveScope.bind fun _ => blames_pure a

lemma Blames.insideLoop (h : Blames lines P x) : Blames lines P (insideLoop x) :=
  blames_enterLoop.bind fun _ => h.bind fun a => blames_leaveLoop.bind fun _ => blames_pure a

lemma Blames.outsideLoops (h : Blames lines P x) : Blames lines P (outsideLoops x) :=
  blames_get.bind fun c => (blames_setLoopDepth 0).bind fun _ => h.bind fun a =>
    (blames_setLoopDepth c.loopDepth).bind fun _ => blames_pure a

/-! ## Single nodes -/

lemma blames_lookup (name : String) : Blames lines P (lookup name) :=
  blames_get.bind fun _ => blames_pure _

lemma blames_define {symbol : Symbol} (hname : P symbol.name) (hline : symbol.line ∈ lines) :
    Blames lines P (define symbol) := by
  intro c hc
  unfold define SymbolTable.define
  rw [StateT.run_bind, StateT.run_get]
  by_cases defined : c.symbols.here.contains symbol.name
  · simp only [if_pos defined, pure_bind]
    exact blames_report (.duplicateDefinition hname hline) c hc
  · simp only [if_neg defined, pure_bind]
    exact hc

lemma blames_nameType {ident : Ident} (hname : P ident.name) (hline : ident.line ∈ lines) :
    Blames lines P (nameType ident) := by
  refine (blames_lookup ident.name).bind fun symbol => ?_
  cases symbol with
  | some symbol => exact blames_pure symbol.ty
  | none => exact blames_report_bind (.undefinedName hname hline) none

/-- What a rule can report is at the lines, so the rule adds only such faults. -/
lemma Judges.blames {Q : Fault → Prop} (h : Judges Q x)
    (hQ : ∀ fault, Q fault → fault.OfTyping lines P) : Blames lines P x := by
  cases h with
  | answer a => exact blames_pure a
  | objection hfault a => exact blames_report_bind (hQ _ hfault) a

lemma blames_unaryType (op : UnaryOp) (operand : Option Ty) (hline : line ∈ lines) :
    Blames lines P (unaryType op operand line) := by
  refine (judges_unaryType op operand line).blames ?_
  rintro _ ⟨ty, rfl⟩
  exact .unaryMismatch op ty hline

lemma blames_binaryType (op : BinOp) (left right : Option Ty) (hline : line ∈ lines) :
    Blames lines P (binaryType op left right line) := by
  refine (judges_binaryType op left right line).blames ?_
  rintro _ ⟨leftTy, rightTy, rfl⟩
  exact .binaryMismatch op leftTy rightTy hline

lemma blames_declaredType {declared : Option Ident}
    (hlines : ∀ ident ∈ declared.toList, ident.line ∈ lines)
    (hnames : ∀ ident ∈ declared.toList, P ident.name) :
    Blames lines P (declaredType declared) := by
  refine (judges_declaredType declared).blames ?_
  rintro _ ⟨ident, hident, rfl⟩
  exact .unknownType (hnames ident hident) (hlines ident hident)

lemma blames_definitionType {name : Ident} {declared : Option Ident} (value : Option Ty)
    (hlines : ∀ ident ∈ name :: declared.toList, ident.line ∈ lines)
    (hnames : ∀ ident ∈ name :: declared.toList, P ident.name) (hline : line ∈ lines) :
    Blames lines P (definitionType name declared value line) := by
  obtain ⟨hname, htypes⟩ := List.forall_mem_cons.mp hnames
  obtain ⟨rest, heq, hrest⟩ := exists_definitionType_eq name declared value line
  rw [heq]
  refine (blames_declaredType (List.forall_mem_cons.mp hlines).2 htypes).bind fun ty => ?_
  refine (hrest ty).blames ?_
  rintro _ ⟨expected, got, rfl⟩
  exact .typeMismatch expected got hname hline

lemma blames_definition (kind : BindingKind) {name : Ident} {declared : Option Ident}
    (value : Option Ty) (hlines : ∀ ident ∈ name :: declared.toList, ident.line ∈ lines)
    (hnames : ∀ ident ∈ name :: declared.toList, P ident.name) (hline : line ∈ lines) :
    Blames lines P (definition kind name declared value line) :=
  (blames_definitionType value hlines hnames hline).bind fun _ =>
    blames_define (hnames name List.mem_cons_self) hline

lemma blames_assignment {target : Ident} (value : Option Ty) (hname : P target.name)
    (hline : line ∈ lines) : Blames lines P (assignment target value line) := by
  obtain ⟨rest, heq, hnone, hsome⟩ := exists_assignment_eq target value line
  rw [heq]
  refine (blames_lookup target.name).bind fun found => ?_
  cases found with
  | none =>
    rw [hnone]
    exact blames_report (.undefinedName hname hline)
  | some symbol =>
    cases hkind : symbol.kind with
    | const =>
      rw [(hsome symbol).1 hkind]
      exact blames_report (.assignToConst hname hline)
    | var =>
      refine ((hsome symbol).2 hkind).blames ?_
      rintro _ ⟨expected, got, rfl⟩
      exact .typeMismatch expected got hname hline

lemma blames_condition {construct : String} (test : Option Ty)
    (hconstruct : construct ∈ ["if", "while"]) (hline : line ∈ lines) :
    Blames lines P (condition construct test line) := by
  refine (judges_condition construct test line).blames ?_
  rintro _ ⟨ty, rfl⟩
  exact .conditionNotBool ty hconstruct hline

lemma blames_loopControl {keyword : String} (hkeyword : keyword ∈ ["break", "continue"])
    (hline : line ∈ lines) : Blames lines P (loopControl keyword line) := by
  refine blames_get.bind fun c => ?_
  split
  · exact blames_report (.loopControlOutsideLoop hkeyword hline)
  · exact blames_pure ()

/-! ## Whole programs -/

mutual

theorem checkExpr_blames : ∀ {e : Expr}, e.Everywhere (.mentions lines P) →
    Blames lines P (checkExpr e)
  | .literal _, _ => by
    rw [checkExpr]
    exact blames_pure _
  | .name ident, ⟨hline, hname⟩ => by
    rw [checkExpr]
    exact blames_nameType (hname ident List.mem_cons_self) hline
  | .unary op _ _, ⟨⟨hline, _⟩, h⟩ => by
    rw [checkExpr]
    exact (checkExpr_blames h).bind fun ty => blames_unaryType op ty hline
  | .binary op _ _ _, ⟨⟨hline, _⟩, hleft, hright⟩ => by
    rw [checkExpr]
    exact (checkExpr_blames hleft).bind fun leftTy => (checkExpr_blames hright).bind fun rightTy =>
      blames_binaryType op leftTy rightTy hline
  | .block body line, ⟨⟨hline, _⟩, hbody⟩ => by
    rw [checkExpr_block]
    refine (checkStmts_blames hbody).inScope.outsideLoops.bind fun ty => ?_
    split
    · exact blames_pure ty
    · exact blames_report_bind (.blockWithoutValue hline) none

theorem checkStmt_blames : ∀ {s : Stmt}, s.Everywhere (.mentions lines P) →
    Blames lines P (checkStmt s)
  | .constDef _ _ _ _, ⟨⟨⟨hline, hlines⟩, hnames⟩, h⟩
  | .varDef _ _ _ _, ⟨⟨⟨hline, hlines⟩, hnames⟩, h⟩ => by
    rw [checkStmt]
    exact (checkExpr_blames h).bind fun ty =>
      (blames_definition _ ty hlines hnames hline).bind fun _ => blames_pure none
  | .varDecl _ _ _, ⟨⟨hline, hlines⟩, hnames⟩ => by
    rw [checkStmt]
    exact (blames_definition .var none hlines hnames hline).bind fun _ => blames_pure none
  | .assign target _ _, ⟨⟨⟨hline, _⟩, hnames⟩, h⟩ => by
    rw [checkStmt]
    have hname : P target.name := hnames target List.mem_cons_self
    exact (checkExpr_blames h).bind fun ty =>
      (blames_assignment ty hname hline).bind fun _ => blames_pure none
  | .print _ _, ⟨_, h⟩ => by
    rw [checkStmt]
    exact (checkExpr_blames h).bind fun _ => blames_pure none
  | .ifElse _ _ _ _, ⟨⟨⟨hline, _⟩, _⟩, htest, hthen, helse⟩ => by
    rw [checkStmt_ifElse]
    have hcondition := fun ty => blames_condition (P := P) ty (by decide : "if" ∈ _) hline
    exact (checkExpr_blames htest).bind fun ty => (hcondition ty).bind fun _ =>
      (checkStmts_blames hthen).inScope.bind fun _ =>
      (checkStmts_blames helse).inScope.bind fun _ => blames_pure none
  | .whileLoop _ _ _, ⟨⟨⟨hline, _⟩, _⟩, htest, hbody⟩ => by
    rw [checkStmt_whileLoop]
    have hcondition := fun ty => blames_condition (P := P) ty (by decide : "while" ∈ _) hline
    exact (checkExpr_blames htest).bind fun ty => (hcondition ty).bind fun _ =>
      (checkStmts_blames hbody).inScope.insideLoop.bind fun _ => blames_pure none
  | .breakLoop _, ⟨⟨hline, _⟩, _⟩ | .continueLoop _, ⟨⟨hline, _⟩, _⟩ => by
    rw [checkStmt]
    exact (blames_loopControl (by decide) hline).bind fun _ => blames_pure none
  | .expr _, ⟨_, h⟩ => by
    rw [checkStmt]
    exact checkExpr_blames h

theorem checkStmts_blames : ∀ {body : List Stmt}, Stmt.AllEverywhere (.mentions lines P) body →
    Blames lines P (checkStmts body)
  | [], _ => blames_pure none
  | [_], ⟨h, _⟩ => by
    rw [checkStmts]
    exact checkStmt_blames h
  | _ :: _ :: _, ⟨hfirst, hrest⟩ => by
    rw [checkStmts_cons_cons]
    exact (checkStmt_blames hfirst).bind fun _ => checkStmts_blames hrest

end

end TypeChecker

/-- What the check of a program reports is a collection of at least one fault, all of which are at
the lines of the program and mention names of the program. -/
theorem Program.ofTyping_of_check {lines : List Nat} {P : String → Prop} {program : Program}
    {fault : Fault} (hmentions : program.Everywhere (.mentions lines P))
    (h : program.check = .error fault) :
    ∃ first rest, fault = .typeErrors (first :: rest) ∧
      ∀ element ∈ first :: rest, element.OfTyping lines P := by
  have hblames := TypeChecker.checkStmts_blames hmentions .new (List.forall_mem_nil _)
  rw [check, TypeChecker.check] at h
  generalize (TypeChecker.checkStmts program.body).run .new = ending at h hblames
  obtain ⟨ty, c⟩ := ending
  dsimp only at h hblames
  split at h
  · cases h
  · next found =>
    cases h
    cases herrors : c.errors with
    | nil => simp [herrors] at found
    | cons first rest => exact ⟨first, rest, rfl, herrors ▸ hblames⟩

/-- All faults that the check of a program reports point at the lines of the program. -/
theorem Program.pointsTo_of_check {lines : List Nat} {program : Program} {fault : Fault}
    (hlines : program.Everywhere (.onLines lines)) (h : program.check = .error fault) :
    ∃ first rest, fault = .typeErrors (first :: rest) ∧
      ∀ element ∈ first :: rest, element.PointsTo lines := by
  have hmentions : (NodeCondition.onLines lines).Implies (.mentions lines fun _ => True) :=
    ⟨fun _ hs => ⟨hs, fun _ _ => trivial⟩, fun _ he => ⟨he, fun _ _ => trivial⟩⟩
  obtain ⟨first, rest, hfault, hfaults⟩ := ofTyping_of_check (hlines.mono hmentions) h
  exact ⟨first, rest, hfault, fun element hmem => (hfaults element hmem).pointsTo⟩

end BlockLang
