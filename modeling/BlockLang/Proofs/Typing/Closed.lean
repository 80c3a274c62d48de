import BlockLang.Proofs.Machine.Frames
import BlockLang.Proofs.Typing.Decision

/-!
# Closed programs

A piece of a program is closed if it uses no names but its own and those that are `known` around
it, and if each `break` and `continue` in it has a loop around it, in the piece itself or, if
`inLoop` says so, around the piece.  The judgement forgets types and kinds altogether, so that the
names known at a point are a single list.

What the checker passes is closed (`Program.allClosed_of_check`).  This holds of every tree, also of
one in which a variable has neither a type nor an initial value and for which there is nothing in
the typing rules: the checker gives it a symbol without a type.
-/

namespace BlockLang

/-! ## The judgement -/

mutual

/-- An expression uses no names but its own and those in `known`. -/
def Expr.Closed (known : List String) : Expr → Prop
  | .literal _ => True
  | .name ident => ident.name ∈ known
  | .unary _ operand _ => operand.Closed known
  | .binary _ left right _ => left.Closed known ∧ right.Closed known
  | .block body _ => Stmt.AllClosed known false body

/-- A statement uses no names but its own and those in `known`, and leaves no loops but its own
or one that is around it. -/
def Stmt.Closed (known : List String) (inLoop : Bool) : Stmt → Prop
  | .constDef _ _ value _ | .varDef _ _ value _ | .print value _ | .expr value =>
    value.Closed known
  | .varDecl .. => True
  | .assign target value _ => value.Closed known ∧ target.name ∈ known
  | .ifElse test thenBlock elseBlock _ =>
    test.Closed known ∧ Stmt.AllClosed known inLoop thenBlock ∧
      Stmt.AllClosed known inLoop elseBlock
  | .whileLoop test body _ => test.Closed known ∧ Stmt.AllClosed known true body
  | .breakLoop _ | .continueLoop _ => inLoop = true

/-- The same of statements one behind the other, each of which knows what those in front of it
define. -/
def Stmt.AllClosed (known : List String) (inLoop : Bool) : List Stmt → Prop
  | [] => True
  | first :: rest =>
    first.Closed known inLoop ∧ Stmt.AllClosed (first.defined ++ known) inLoop rest

end

namespace TypeChecker

variable {c c' : TypeChecker} {layers : List (NameMap Symbol)} {top : NameMap Symbol}
  {known known' : List String} {inLoop inLoop' : Bool}

/-! ## Rules for single nodes, whatever the types -/

lemma eq_of_silent_unaryType {op : UnaryOp} {operand answer : Option Ty} {line : Nat}
    (h : Silent (unaryType op operand line) c answer c') : c' = c := by
  cases operand with
  | none => exact (silent_pure.mp h).2
  | some ty => exact (silent_unaryType.mp h).1

lemma eq_of_silent_binaryType {op : BinOp} {left right answer : Option Ty} {line : Nat}
    (h : Silent (binaryType op left right line) c answer c') : c' = c := by
  cases left with
  | none => exact (silent_pure.mp h).2
  | some leftTy =>
    cases right with
    | none => exact (silent_pure.mp h).2
    | some rightTy => exact (silent_binaryType.mp h).1

lemma eq_of_silent_condition {construct : String} {test : Option Ty} {line : Nat} {u : Unit}
    (h : Silent (condition construct test line) c u c') : c' = c := by
  cases test with
  | none => exact (silent_pure.mp h).2
  | some ty => exact (silent_condition.mp h).1

lemma eq_of_silent_definitionType {name : Ident} {declared : Option Ident}
    {value answer : Option Ty} {line : Nat}
    (h : Silent (definitionType name declared value line) c answer c') : c' = c := by
  cases value with
  | some got => exact (silent_definitionType_some.mp h).1
  | none =>
    cases declared with
    | none => exact (silent_pure.mp h).2
    | some ident => exact (silent_definitionType_none.mp h).1

/-- A definition enters a symbol of its name. -/
lemma of_silent_definition {kind : BindingKind} {name : Ident} {declared : Option Ident}
    {value : Option Ty} {line : Nat} {u : Unit}
    (h : Silent (definition kind name declared value line) c u c') :
    ∃ symbol, c' = { c with symbols := c.symbols.insert name.name symbol } := by
  rw [definition, silent_bind] at h
  obtain ⟨ty, _, hty, hdefine⟩ := h
  obtain rfl := eq_of_silent_definitionType hty
  exact ⟨_, (silent_define.mp hdefine).2⟩

/-- The target of an assignment is a name that the checker knows. -/
lemma of_silent_assignment {target : Ident} {value : Option Ty} {line : Nat} {u : Unit}
    (h : Silent (assignment target value line) c u c') :
    c' = c ∧ (c.symbols.get? target.name).isSome = true := by
  cases value with
  | some got =>
    obtain ⟨rfl, symbol, found, -⟩ := silent_assignment.mp h
    exact ⟨rfl, by rw [found]; rfl⟩
  | none =>
    rw [assignment, @silent_bind _ _ _ _ _ _ _ _ fun found => ?_] at h
    · obtain ⟨_, _, hlookup, hs⟩ := h
      obtain ⟨hanswer, hsame⟩ := silent_lookup.mp hlookup
      rw [hanswer, hsame] at hs
      cases hfound : c.symbols.get? target.name with
      | none => simp [hfound] at hs
      | some symbol =>
        cases hkind : symbol.kind with
        | const => simp [hfound, hkind] at hs
        | var => exact ⟨by simpa [hfound, hkind] using hs, rfl⟩
    · split
      · infer_instance
      · split
        · infer_instance
        · split <;> infer_instance

/-! ## What the checker sees -/

/-- The checker has the scopes `layers`, in which there are no names but `known`, and counts no
loop unless `inLoop` says that there is one. -/
structure Sees (c : TypeChecker) (layers : List (NameMap Symbol)) (known : List String)
    (inLoop : Bool) : Prop where
  hasLayers : c.symbols.HasLayers layers
  mem_known : ∀ name, (layers.findSome? (·.get? name)).isSome = true → name ∈ known
  inLoop_of_ne : c.loopDepth ≠ 0 → inLoop = true

lemma sees_new : new.Sees [.empty] [] false where
  hasLayers := ScopeTree.hasLayers_root
  mem_known name h := by simp at h
  inLoop_of_ne h := absurd rfl h

namespace Sees

/-- A name that has a symbol is known. -/
lemma mem_of_get? (h : c.Sees layers known inLoop) {name : String}
    (found : (c.symbols.get? name).isSome = true) : name ∈ known := by
  rw [h.hasLayers.get?_eq] at found
  exact h.mem_known name found

lemma enter (h : c.Sees layers known inLoop) :
    Sees { c with symbols := c.symbols.enter } (.empty :: layers) known inLoop where
  hasLayers := h.hasLayers.enter
  mem_known name hname := h.mem_known name (by simpa using hname)
  inLoop_of_ne := h.inLoop_of_ne

/-- Behind a block the checker sees what it has seen in front of it. -/
lemma leave (h : c.Sees layers known inLoop) (h' : c'.Sees (top :: layers) known' inLoop') :
    Sees { c' with symbols := c'.symbols.leave } layers known inLoop' where
  hasLayers := h'.hasLayers.leave h.hasLayers.ne_nil
  mem_known := h.mem_known
  inLoop_of_ne := h'.inLoop_of_ne

/-- Around another number of loops. -/
lemma setLoopDepth (h : c.Sees layers known inLoop) {depth : Nat}
    (hdepth : depth ≠ 0 → inLoop' = true) :
    Sees { c with loopDepth := depth } layers known inLoop' :=
  ⟨h.hasLayers, h.mem_known, hdepth⟩

/-- In a block expression, where the loops around it do not count. -/
lemma outsideLoops (h : c.Sees layers known inLoop) :
    Sees { c with loopDepth := 0 } layers known false :=
  h.setLoopDepth (absurd rfl)

/-- In the body of one more loop. -/
lemma insideLoop (h : c.Sees layers known inLoop) :
    Sees { c with loopDepth := c.loopDepth + 1 } layers known true :=
  h.setLoopDepth fun _ => rfl

lemma insert (h : c.Sees (top :: layers) known inLoop) (name : String) (symbol : Symbol) :
    Sees { c with symbols := c.symbols.insert name symbol } (top.insert name symbol :: layers)
      (name :: known) inLoop where
  hasLayers := h.hasLayers.insert name symbol
  mem_known other hother := by
    by_cases heq : other = name
    · exact heq ▸ List.mem_cons_self
    · refine List.mem_cons_of_mem _ (h.mem_known other ?_)
      rw [List.findSome?_cons] at hother ⊢
      rwa [NameMap.get?_insert, if_neg heq] at hother
  inLoop_of_ne := h.inLoop_of_ne

end Sees

/-! ## What is passed is closed -/

mutual

theorem checkExpr_closed : ∀ {e : Expr} {layers : List (NameMap Symbol)} {known : List String}
    {inLoop : Bool} {c c' : TypeChecker} {answer : Option Ty}, c.Sees layers known inLoop →
    Silent (checkExpr e) c answer c' → e.Closed known ∧ c'.Sees layers known inLoop
  | .literal _, _, _, _, _, _, _, hc, hs => by
    rw [checkExpr, silent_pure] at hs
    obtain ⟨-, rfl⟩ := hs
    exact ⟨trivial, hc⟩
  | .name _, _, _, _, _, _, _, hc, hs => by
    rw [checkExpr, silent_nameType] at hs
    obtain ⟨rfl, symbol, found, -⟩ := hs
    exact ⟨hc.mem_of_get? (by rw [found]; rfl), hc⟩
  | .unary _ _ _, _, _, _, _, _, _, hc, hs => by
    rw [checkExpr, silent_bind] at hs
    obtain ⟨_, _, hs, hunary⟩ := hs
    obtain ⟨closed, hc⟩ := checkExpr_closed hc hs
    obtain rfl := eq_of_silent_unaryType hunary
    exact ⟨closed, hc⟩
  | .binary _ _ _ _, _, _, _, _, _, _, hc, hs => by
    simp only [checkExpr, silent_bind] at hs
    obtain ⟨_, _, hs, _, _, hs', hbinary⟩ := hs
    obtain ⟨leftClosed, hc⟩ := checkExpr_closed hc hs
    obtain ⟨rightClosed, hc⟩ := checkExpr_closed hc hs'
    obtain rfl := eq_of_silent_binaryType hbinary
    exact ⟨⟨leftClosed, rightClosed⟩, hc⟩
  | .block _ _, _, _, _, _, _, _, hc, hs => by
    obtain ⟨_, c₁, hbody, rfl⟩ := silent_block.mp hs
    obtain ⟨closed, _, _, hc₁⟩ := checkStmts_closed hc.outsideLoops.enter hbody
    exact ⟨closed, (hc.leave hc₁).setLoopDepth hc.inLoop_of_ne⟩

theorem checkStmt_closed : ∀ {s : Stmt} {top : NameMap Symbol} {layers : List (NameMap Symbol)}
    {known : List String} {inLoop : Bool} {c c' : TypeChecker} {answer : Option Ty},
    c.Sees (top :: layers) known inLoop → Silent (checkStmt s) c answer c' →
    s.Closed known inLoop ∧ ∃ top', c'.Sees (top' :: layers) (s.defined ++ known) inLoop
  | .constDef _ _ _ _, _, _, _, _, _, _, _, hc, hs
  | .varDef _ _ _ _, _, _, _, _, _, _, _, hc, hs => by
    simp only [checkStmt, silent_bind, silent_pure] at hs
    obtain ⟨_, _, hs, _, _, hdef, -, rfl⟩ := hs
    obtain ⟨closed, hc⟩ := checkExpr_closed hc hs
    obtain ⟨symbol, rfl⟩ := of_silent_definition hdef
    exact ⟨closed, _, hc.insert _ symbol⟩
  | .varDecl _ _ _, _, _, _, _, _, _, _, hc, hs => by
    simp only [checkStmt, silent_bind, silent_pure] at hs
    obtain ⟨_, _, hdef, -, rfl⟩ := hs
    obtain ⟨symbol, rfl⟩ := of_silent_definition hdef
    exact ⟨trivial, _, hc.insert _ symbol⟩
  | .assign _ _ _, top, _, _, _, _, _, _, hc, hs => by
    simp only [checkStmt, silent_bind, silent_pure] at hs
    obtain ⟨_, _, hs, _, _, hassign, -, rfl⟩ := hs
    obtain ⟨closed, hc⟩ := checkExpr_closed hc hs
    obtain ⟨rfl, found⟩ := of_silent_assignment hassign
    exact ⟨⟨closed, hc.mem_of_get? found⟩, top, hc⟩
  | .print _ _, top, _, _, _, _, _, _, hc, hs => by
    simp only [checkStmt, silent_bind, silent_pure] at hs
    obtain ⟨_, _, hs, -, rfl⟩ := hs
    obtain ⟨closed, hc⟩ := checkExpr_closed hc hs
    exact ⟨closed, top, hc⟩
  | .ifElse _ _ _ _, top, _, _, _, _, _, _, hc, hs => by
    simp only [checkStmt_ifElse, silent_bind, silent_pure, silent_inScope] at hs
    obtain ⟨_, _, hs, _, _, hcond, _, _, ⟨_, hs', rfl⟩, _, _, ⟨_, hs'', rfl⟩, -, rfl⟩ := hs
    obtain ⟨closed, hc⟩ := checkExpr_closed hc hs
    obtain rfl := eq_of_silent_condition hcond
    obtain ⟨thenClosed, _, _, hthen⟩ := checkStmts_closed hc.enter hs'
    have hbetween := hc.leave hthen
    obtain ⟨elseClosed, _, _, helse⟩ := checkStmts_closed hbetween.enter hs''
    exact ⟨⟨closed, thenClosed, elseClosed⟩, top, hc.leave helse⟩
  | .whileLoop _ _ _, top, _, _, _, _, _, _, hc, hs => by
    simp only [checkStmt_whileLoop, silent_bind, silent_pure] at hs
    obtain ⟨_, _, hs, _, _, hcond, _, _, hloop, -, rfl⟩ := hs
    obtain ⟨_, hscope, rfl⟩ := silent_insideLoop.mp hloop
    obtain ⟨_, hs', rfl⟩ := silent_inScope.mp hscope
    obtain ⟨closed, hc⟩ := checkExpr_closed hc hs
    obtain rfl := eq_of_silent_condition hcond
    obtain ⟨bodyClosed, _, _, hbody⟩ := checkStmts_closed hc.insideLoop.enter hs'
    exact ⟨⟨closed, bodyClosed⟩, top, (hc.leave hbody).setLoopDepth hc.inLoop_of_ne⟩
  | .breakLoop _, top, _, _, _, _, _, _, hc, hs
  | .continueLoop _, top, _, _, _, _, _, _, hc, hs => by
    simp only [checkStmt, silent_bind, silent_pure] at hs
    obtain ⟨_, _, hloop, -, rfl⟩ := hs
    obtain ⟨rfl, hdepth⟩ := silent_loopControl.mp hloop
    exact ⟨hc.inLoop_of_ne hdepth, top, hc⟩
  | .expr _, top, _, _, _, _, _, _, hc, hs => by
    rw [checkStmt] at hs
    obtain ⟨closed, hc⟩ := checkExpr_closed hc hs
    exact ⟨closed, top, hc⟩

theorem checkStmts_closed : ∀ {body : List Stmt} {top : NameMap Symbol}
    {layers : List (NameMap Symbol)} {known : List String} {inLoop : Bool} {c c' : TypeChecker}
    {answer : Option Ty}, c.Sees (top :: layers) known inLoop →
    Silent (checkStmts body) c answer c' →
    Stmt.AllClosed known inLoop body ∧ ∃ top' known', c'.Sees (top' :: layers) known' inLoop
  | [], top, _, known, _, _, _, _, hc, hs => by
    rw [checkStmts, silent_pure] at hs
    obtain ⟨-, rfl⟩ := hs
    exact ⟨trivial, top, known, hc⟩
  | [last], _, _, _, _, _, _, _, hc, hs => by
    rw [checkStmts] at hs
    obtain ⟨closed, top', hc'⟩ := checkStmt_closed hc hs
    exact ⟨⟨closed, trivial⟩, top', _, hc'⟩
  | first :: second :: rest, _, _, _, _, _, _, _, hc, hs => by
    rw [checkStmts_cons_cons, silent_bind] at hs
    obtain ⟨_, _, hs, hs'⟩ := hs
    obtain ⟨closed, _, hc⟩ := checkStmt_closed hc hs
    obtain ⟨restClosed, behind⟩ := checkStmts_closed hc hs'
    exact ⟨⟨closed, restClosed⟩, behind⟩

end

end TypeChecker

/-- A program that the checker passes is closed. -/
theorem Program.allClosed_of_check {program : Program} (h : program.check = .ok ()) :
    Stmt.AllClosed [] false program.body := by
  obtain ⟨_, _, hs⟩ := TypeChecker.check_eq_ok_iff_silent.mp h
  exact (TypeChecker.checkStmts_closed TypeChecker.sees_new hs).1

end BlockLang
