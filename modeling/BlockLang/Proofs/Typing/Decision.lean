import BlockLang.Proofs.Program.Everywhere
import BlockLang.Proofs.Typing.Rules
import BlockLang.Proofs.Typing.Silent

/-!
# The checker decides the typing rules

The checker walks over a program once, with symbols in a tree of scopes, a count of the loops
around it and a list of faults.  The rules of `BlockLang.Proofs.Typing.Rules` know nothing of all
that.  `TypeChecker.Knows` relates the two at a point of the program: the symbols are what the
context declares, and the count says whether a loop is around.

On this relation the two directions go side by side, each by recursion over the tree:

* `checkExpr_typed` and its companions: what is passed silently has a type by the rules;
* `checkExpr_passes` and its companions: what has a type by the rules is passed silently.

`Program.check_eq_ok_iff` puts them together.  Its only premise is that every variable has a type
or an initial value: the checker says nothing about a variable that has neither.
-/

namespace BlockLang

/-- The kind and the type of a symbol, if it has a type. -/
def Symbol.view (symbol : Symbol) : Option (BindingKind × Ty) :=
  symbol.ty.map fun ty => (symbol.kind, ty)

@[simp] lemma Symbol.view_eq_some_iff {symbol : Symbol} {kind : BindingKind} {ty : Ty} :
    symbol.view = some (kind, ty) ↔ symbol.kind = kind ∧ symbol.ty = some ty := by
  rw [view, Option.map_eq_some_iff]
  constructor
  · rintro ⟨ty', hty, heq⟩
    cases heq
    exact ⟨rfl, hty⟩
  · rintro ⟨rfl, hty⟩
    exact ⟨ty, hty, rfl⟩

namespace TypeChecker

variable {c c' : TypeChecker} {Γ Δ : Context} {inLoop : Bool}

/-! ## The checker at a point of a program -/

/-- The checker stands where `Γ` is known, and where a loop is around if `inLoop` says so. -/
structure Knows (c : TypeChecker) (Γ : Context) (inLoop : Bool) : Prop where
  symbols : ∃ layers, c.symbols.HasLayers layers ∧ Γ.Describes Symbol.view layers
  inLoop_iff : inLoop = true ↔ c.loopDepth ≠ 0

lemma knows_new : new.Knows [[]] false :=
  ⟨⟨_, ScopeTree.hasLayers_root, .cons Context.describesScope_empty .nil⟩, by simp [new]⟩

namespace Knows

lemma ne_nil (h : c.Knows Γ inLoop) : Γ ≠ [] := by
  obtain ⟨layers, hlayers, hdescribes⟩ := h.symbols
  rintro rfl
  cases hdescribes
  exact hlayers.ne_nil rfl

/-- Behind the opening brace of a block. -/
lemma enter (h : c.Knows Γ inLoop) :
    Knows { c with symbols := c.symbols.enter } ([] :: Γ) inLoop := by
  obtain ⟨layers, hlayers, hdescribes⟩ := h.symbols
  exact ⟨⟨_, hlayers.enter, hdescribes.enter⟩, h.inLoop_iff⟩

/-- Behind the closing brace of a block, where the context has the scopes around the block. -/
lemma leave (h : c.Knows Δ inLoop) (htail : Δ.tail = Γ) (hne : Γ ≠ []) :
    Knows { c with symbols := c.symbols.leave } Γ inLoop := by
  obtain ⟨layers, hlayers, hdescribes⟩ := h.symbols
  cases hdescribes with
  | nil => exact absurd htail.symm hne
  | cons _ houter =>
    obtain rfl : _ = Γ := htail
    refine ⟨⟨_, hlayers.leave ?_, houter⟩, h.inLoop_iff⟩
    rintro rfl
    cases houter
    exact hne rfl

/-- Around another number of loops. -/
lemma setLoopDepth (h : c.Knows Γ inLoop) {depth : Nat} {inner : Bool}
    (hinner : inner = true ↔ depth ≠ 0) : Knows { c with loopDepth := depth } Γ inner :=
  ⟨h.symbols, hinner⟩

/-- In a block expression, where the loops around it do not count. -/
lemma outsideLoops (h : c.Knows Γ inLoop) : Knows { c with loopDepth := 0 } Γ false :=
  h.setLoopDepth (by simp)

/-- In the body of one more loop. -/
lemma insideLoop (h : c.Knows Γ inLoop) :
    Knows { c with loopDepth := c.loopDepth + 1 } Γ true :=
  h.setLoopDepth (by simp)

lemma get?_of_resolves (h : c.Knows Γ inLoop) {name : String} {d : Declaration}
    (hd : Γ.Resolves name d) :
    ∃ symbol, c.symbols.get? name = some symbol ∧ symbol.kind = d.kind ∧ symbol.ty = some d.ty := by
  obtain ⟨layers, hlayers, hdescribes⟩ := h.symbols
  obtain ⟨symbol, hsymbol, hview⟩ := hdescribes.findSome?_of_resolves hd
  exact ⟨symbol, (hlayers.get?_eq name).trans hsymbol, Symbol.view_eq_some_iff.mp hview⟩

lemma resolves_of_get? (h : c.Knows Γ inLoop) {name : String} {symbol : Symbol}
    (hsymbol : c.symbols.get? name = some symbol) :
    ∃ d, Γ.Resolves name d ∧ symbol.kind = d.kind ∧ symbol.ty = some d.ty := by
  obtain ⟨layers, hlayers, hdescribes⟩ := h.symbols
  rw [hlayers.get?_eq] at hsymbol
  obtain ⟨d, hd, hview⟩ := hdescribes.resolves_of_findSome? hsymbol
  exact ⟨d, hd, Symbol.view_eq_some_iff.mp hview⟩

/-- A name can be defined just if a declaration of it would be new. -/
lemma here_get?_eq_none_iff (h : c.Knows Γ inLoop) (d : Declaration) :
    c.symbols.here.get? d.name = none ↔ ∃ Δ, Γ.Declares d Δ := by
  obtain ⟨layers, hlayers, hdescribes⟩ := h.symbols
  cases hdescribes with
  | nil => exact absurd rfl h.ne_nil
  | cons hscope houter =>
    rw [hlayers.here_eq, hscope.get?_eq_none_iff]
    constructor
    · exact fun unknown => ⟨_, .fresh unknown⟩
    · rintro ⟨_, ⟨unknown⟩⟩
      exact unknown

lemma insert (h : c.Knows Γ inLoop) {d : Declaration} (hd : Γ.Declares d Δ) (line : Nat) :
    Knows { c with symbols := c.symbols.insert d.name ⟨d.name, d.kind, some d.ty, line⟩ } Δ
      inLoop := by
  obtain ⟨layers, hlayers, hdescribes⟩ := h.symbols
  cases hdescribes with
  | nil => exact absurd rfl h.ne_nil
  | cons hscope houter =>
    refine ⟨⟨_, hlayers.insert _ _, ?_⟩, h.inLoop_iff⟩
    exact Context.Describes.declare (.cons hscope houter) hd
      (Symbol.view_eq_some_iff.mpr ⟨rfl, rfl⟩)

/-! ### The rules for single nodes -/

lemma silent_nameType_iff (h : c.Knows Γ inLoop) {ident : Ident} {answer : Option Ty} :
    Silent (nameType ident) c answer c' ↔
      c' = c ∧ ∃ d, Γ.Resolves ident.name d ∧ answer = some d.ty := by
  rw [silent_nameType]
  refine and_congr_right fun _ => ⟨?_, ?_⟩
  · rintro ⟨symbol, hsymbol, rfl⟩
    obtain ⟨d, hd, -, hty⟩ := h.resolves_of_get? hsymbol
    exact ⟨d, hd, hty⟩
  · rintro ⟨d, hd, rfl⟩
    obtain ⟨symbol, hsymbol, -, hty⟩ := h.get?_of_resolves hd
    exact ⟨symbol, hsymbol, hty.symm⟩

lemma silent_assignment_iff (h : c.Knows Γ inLoop) {target : Ident} {ty : Ty} {line : Nat} :
    Silent (assignment target (some ty) line) c () c' ↔
      c' = c ∧ ∃ d, Γ.Resolves target.name d ∧ d.kind = .var ∧ d.ty = ty := by
  rw [silent_assignment]
  refine and_congr_right fun _ => ⟨?_, ?_⟩
  · rintro ⟨symbol, hsymbol, hvar, hsame⟩
    obtain ⟨d, hd, hkind, hty⟩ := h.resolves_of_get? hsymbol
    exact ⟨d, hd, hkind ▸ hvar, hsame d.ty hty⟩
  · rintro ⟨d, hd, hvar, rfl⟩
    obtain ⟨symbol, hsymbol, hkind, hty⟩ := h.get?_of_resolves hd
    refine ⟨symbol, hsymbol, hkind.trans hvar, fun expected hexpected => ?_⟩
    exact Option.some.inj (hexpected.symm.trans hty)

/-- What is defined silently is a declaration that is new. -/
lemma of_silent_define (h : c.Knows Γ inLoop) {name : String} {kind : BindingKind} {ty : Ty}
    {line : Nat} {u : Unit} (hs : Silent (define ⟨name, kind, some ty, line⟩) c u c') :
    ∃ Δ, Γ.Declares ⟨name, kind, ty⟩ Δ ∧ c'.Knows Δ inLoop := by
  obtain ⟨hnew, rfl⟩ := silent_define.mp hs
  obtain ⟨Δ, hd⟩ := (h.here_get?_eq_none_iff ⟨name, kind, ty⟩).mp hnew
  exact ⟨Δ, hd, h.insert hd line⟩

/-- A declaration that is new is defined silently. -/
lemma define_silent (h : c.Knows Γ inLoop) {d : Declaration} (hd : Γ.Declares d Δ) (line : Nat) :
    ∃ c', Silent (define ⟨d.name, d.kind, some d.ty, line⟩) c () c' ∧ c'.Knows Δ inLoop :=
  ⟨_, silent_define.mpr ⟨(h.here_get?_eq_none_iff d).mpr ⟨Δ, hd⟩, rfl⟩, h.insert hd line⟩

/-- A definition with a value that has a type. -/
lemma of_silent_definition (h : c.Knows Γ inLoop) {kind : BindingKind} {name : Ident}
    {declared : Option Ident} {ty : Ty} {line : Nat} {u : Unit}
    (hs : Silent (definition kind name declared (some ty) line) c u c') :
    ty.Annotates declared ∧
      ∃ Δ, Γ.Declares ⟨name.name, kind, ty⟩ Δ ∧ c'.Knows Δ inLoop := by
  rw [definition, silent_bind] at hs
  obtain ⟨_, _, hty, hdefine⟩ := hs
  obtain ⟨rfl, rfl, hdeclared⟩ := silent_definitionType_some.mp hty
  exact ⟨fun ident hident => Ty.ofName?_eq_some_iff.mp (hdeclared ident hident),
    h.of_silent_define hdefine⟩

lemma definition_silent (h : c.Knows Γ inLoop) {kind : BindingKind} {name : Ident}
    {declared : Option Ident} {ty : Ty} (line : Nat) (annotated : ty.Annotates declared)
    (hd : Γ.Declares ⟨name.name, kind, ty⟩ Δ) :
    ∃ c', Silent (definition kind name declared (some ty) line) c () c' ∧ c'.Knows Δ inLoop := by
  obtain ⟨c', hdefine, hc'⟩ := h.define_silent hd line
  refine ⟨c', silent_bind.mpr ⟨_, _, silent_definitionType_some.mpr ⟨rfl, rfl, ?_⟩, hdefine⟩, hc'⟩
  exact fun ident hident => Ty.ofName?_eq_some_iff.mpr (annotated ident hident)

/-- A definition with a type and without a value. -/
lemma of_silent_declaration (h : c.Knows Γ inLoop) {kind : BindingKind} {name ident : Ident}
    {line : Nat} {u : Unit} (hs : Silent (definition kind name (some ident) none line) c u c') :
    ∃ ty : Ty, ty.name = ident.name ∧
      ∃ Δ, Γ.Declares ⟨name.name, kind, ty⟩ Δ ∧ c'.Knows Δ inLoop := by
  rw [definition, silent_bind] at hs
  obtain ⟨_, _, hty, hdefine⟩ := hs
  obtain ⟨rfl, ty, hname, rfl⟩ := silent_definitionType_none.mp hty
  exact ⟨ty, Ty.ofName?_eq_some_iff.mp hname, h.of_silent_define hdefine⟩

lemma declaration_silent (h : c.Knows Γ inLoop) {kind : BindingKind} {name ident : Ident} {ty : Ty}
    (line : Nat) (annotated : ty.name = ident.name) (hd : Γ.Declares ⟨name.name, kind, ty⟩ Δ) :
    ∃ c', Silent (definition kind name (some ident) none line) c () c' ∧ c'.Knows Δ inLoop := by
  obtain ⟨c', hdefine, hc'⟩ := h.define_silent hd line
  have hty := Ty.ofName?_eq_some_iff.mpr annotated
  exact ⟨c', silent_bind.mpr ⟨_, _, silent_definitionType_none.mpr ⟨rfl, ty, hty, rfl⟩, hdefine⟩,
    hc'⟩

end Knows

/-! ## What is passed silently has a type -/

mutual

theorem checkExpr_typed : ∀ {e : Expr} {Γ : Context} {inLoop : Bool} {c c' : TypeChecker}
    {answer : Option Ty}, e.Everywhere .declared → c.Knows Γ inLoop →
    Silent (checkExpr e) c answer c' →
    ∃ ty, answer = some ty ∧ HasType Γ e ty ∧ c'.Knows Γ inLoop
  | .literal value, Γ, _, _, _, _, _, hc, hs => by
    rw [checkExpr, silent_pure] at hs
    obtain ⟨rfl, rfl⟩ := hs
    exact ⟨_, rfl, .literal Γ value, hc⟩
  | .name ident, _, _, _, _, _, _, hc, hs => by
    rw [checkExpr, hc.silent_nameType_iff] at hs
    obtain ⟨rfl, d, hd, rfl⟩ := hs
    exact ⟨_, rfl, .name hd, hc⟩
  | .unary op operand line, _, _, _, _, _, ⟨_, hoperand⟩, hc, hs => by
    rw [checkExpr, silent_bind] at hs
    obtain ⟨_, _, hs, hunary⟩ := hs
    obtain ⟨ty, rfl, typed, hc⟩ := checkExpr_typed hoperand hc hs
    obtain ⟨rfl, result, hrow, rfl⟩ := silent_unaryType.mp hunary
    exact ⟨result, rfl, .unary typed (Ty.ofUnary?_eq_some_iff.mp hrow), hc⟩
  | .binary op left right line, _, _, _, _, _, ⟨_, hleft, hright⟩, hc, hs => by
    simp only [checkExpr, silent_bind] at hs
    obtain ⟨_, _, hs, _, _, hs', hbinary⟩ := hs
    obtain ⟨leftTy, rfl, leftTyped, hc⟩ := checkExpr_typed hleft hc hs
    obtain ⟨rightTy, rfl, rightTyped, hc⟩ := checkExpr_typed hright hc hs'
    obtain ⟨rfl, ty, hrow, rfl⟩ := silent_binaryType.mp hbinary
    exact ⟨ty, rfl, .binary leftTyped rightTyped (Ty.ofBinary?_eq_some_iff.mp hrow), hc⟩
  | .block body line, Γ, inLoop, c, _, _, ⟨_, hbody⟩, hc, hs => by
    obtain ⟨hends, c₁, hbodySilent, rfl⟩ := silent_block.mp hs
    obtain ⟨ty, rfl, typed, Δ, htail, hc₁⟩ :=
      checkBody_typed hends hbody hc.outsideLoops.enter hbodySilent
    exact ⟨ty, rfl, .block typed, (hc₁.leave htail hc.ne_nil).setLoopDepth hc.inLoop_iff⟩

theorem checkBody_typed : ∀ {body : List Stmt} {Γ : Context} {c c' : TypeChecker}
    {answer : Option Ty}, endsWithExpr body = true → Stmt.AllEverywhere .declared body →
    c.Knows Γ false → Silent (checkStmts body) c answer c' →
    ∃ ty, answer = some ty ∧ HasBodyType Γ body ty ∧ ∃ Δ, Δ.tail = Γ.tail ∧ c'.Knows Δ false
  | [.expr value], Γ, _, _, _, _, ⟨⟨_, hvalue⟩, _⟩, hc, hs => by
    rw [checkStmts, checkStmt] at hs
    obtain ⟨ty, rfl, typed, hc'⟩ := checkExpr_typed hvalue hc hs
    exact ⟨ty, rfl, .last typed, Γ, rfl, hc'⟩
  | first :: second :: rest, _, _, _, _, hends, ⟨hfirst, hrest⟩, hc, hs => by
    rw [checkStmts_cons_cons, silent_bind] at hs
    obtain ⟨_, _, hs, hs'⟩ := hs
    obtain ⟨Δ, admitted, hc⟩ := checkStmt_typed hfirst hc hs
    have hends' : endsWithExpr (second :: rest) = true := by simpa [endsWithExpr] using hends
    obtain ⟨ty, rfl, typed, Δ', htail, hc'⟩ := checkBody_typed hends' hrest hc hs'
    exact ⟨ty, rfl, .behind admitted typed, Δ', htail.trans admitted.tail_eq, hc'⟩

theorem checkStmt_typed : ∀ {s : Stmt} {Γ : Context} {inLoop : Bool} {c c' : TypeChecker}
    {answer : Option Ty}, s.Everywhere .declared → c.Knows Γ inLoop →
    Silent (checkStmt s) c answer c' → ∃ Δ, Admits Γ inLoop s Δ ∧ c'.Knows Δ inLoop
  | .constDef name declared value line, _, _, _, _, _, ⟨_, hvalue⟩, hc, hs => by
    simp only [checkStmt, silent_bind, silent_pure] at hs
    obtain ⟨_, _, hs, _, _, hdef, -, rfl⟩ := hs
    obtain ⟨ty, rfl, typed, hc⟩ := checkExpr_typed hvalue hc hs
    obtain ⟨annotated, Δ, hd, hc'⟩ := hc.of_silent_definition hdef
    exact ⟨Δ, .constDef typed annotated hd, hc'⟩
  | .varDef name declared value line, _, _, _, _, _, ⟨_, hvalue⟩, hc, hs => by
    simp only [checkStmt, silent_bind, silent_pure] at hs
    obtain ⟨_, _, hs, _, _, hdef, -, rfl⟩ := hs
    obtain ⟨ty, rfl, typed, hc⟩ := checkExpr_typed hvalue hc hs
    obtain ⟨annotated, Δ, hd, hc'⟩ := hc.of_silent_definition hdef
    exact ⟨Δ, .varDef typed annotated hd, hc'⟩
  | .varDecl name (some declared) line, _, _, _, _, _, _, hc, hs => by
    simp only [checkStmt, silent_bind, silent_pure] at hs
    obtain ⟨_, _, hdef, -, rfl⟩ := hs
    obtain ⟨ty, annotated, Δ, hd, hc'⟩ := hc.of_silent_declaration hdef
    exact ⟨Δ, .varDecl annotated hd, hc'⟩
  | .assign target value line, Γ, _, _, _, _, ⟨_, hvalue⟩, hc, hs => by
    simp only [checkStmt, silent_bind, silent_pure] at hs
    obtain ⟨_, _, hs, _, _, hassign, -, rfl⟩ := hs
    obtain ⟨ty, rfl, typed, hc⟩ := checkExpr_typed hvalue hc hs
    obtain ⟨rfl, d, hd, hvar, rfl⟩ := hc.silent_assignment_iff.mp hassign
    exact ⟨Γ, .assign typed hd hvar, hc⟩
  | .print value line, Γ, _, _, _, _, ⟨_, hvalue⟩, hc, hs => by
    simp only [checkStmt, silent_bind, silent_pure] at hs
    obtain ⟨_, _, hs, -, rfl⟩ := hs
    obtain ⟨ty, -, typed, hc'⟩ := checkExpr_typed hvalue hc hs
    exact ⟨Γ, .print typed, hc'⟩
  | .ifElse test thenBlock elseBlock line, Γ, _, _, _, _, ⟨_, htest, hthen, helse⟩, hc, hs => by
    simp only [checkStmt_ifElse, silent_bind, silent_pure, silent_inScope] at hs
    obtain ⟨_, _, hs, _, _, hcond, _, _, ⟨_, hs', rfl⟩, _, _, ⟨_, hs'', rfl⟩, -, rfl⟩ := hs
    obtain ⟨ty, rfl, typed, hc⟩ := checkExpr_typed htest hc hs
    obtain ⟨rfl, rfl⟩ := silent_condition.mp hcond
    obtain ⟨Δ, thenAdmitted, hΔ⟩ := checkStmts_typed hthen hc.enter hs'
    have hbetween := hΔ.leave thenAdmitted.tail_eq hc.ne_nil
    obtain ⟨Δ', elseAdmitted, hΔ'⟩ := checkStmts_typed helse hbetween.enter hs''
    exact ⟨Γ, .ifElse typed thenAdmitted elseAdmitted, hΔ'.leave elseAdmitted.tail_eq hc.ne_nil⟩
  | .whileLoop test body line, Γ, _, _, _, _, ⟨_, htest, hbody⟩, hc, hs => by
    simp only [checkStmt_whileLoop, silent_bind, silent_pure] at hs
    obtain ⟨_, _, hs, _, _, hcond, _, _, hloop, -, rfl⟩ := hs
    obtain ⟨_, hscope, rfl⟩ := silent_insideLoop.mp hloop
    obtain ⟨_, hs', rfl⟩ := silent_inScope.mp hscope
    obtain ⟨ty, rfl, typed, hc⟩ := checkExpr_typed htest hc hs
    obtain ⟨rfl, rfl⟩ := silent_condition.mp hcond
    obtain ⟨Δ, admitted, hΔ⟩ := checkStmts_typed hbody hc.insideLoop.enter hs'
    have hbehind := hΔ.leave admitted.tail_eq hc.ne_nil
    exact ⟨Γ, .whileLoop typed admitted, hbehind.setLoopDepth hc.inLoop_iff⟩
  | .breakLoop line, Γ, _, _, _, _, _, hc, hs => by
    simp only [checkStmt, silent_bind, silent_pure] at hs
    obtain ⟨_, _, hloop, -, rfl⟩ := hs
    obtain ⟨rfl, hdepth⟩ := silent_loopControl.mp hloop
    obtain rfl := hc.inLoop_iff.mpr hdepth
    exact ⟨Γ, .breakLoop, hc⟩
  | .continueLoop line, Γ, _, _, _, _, _, hc, hs => by
    simp only [checkStmt, silent_bind, silent_pure] at hs
    obtain ⟨_, _, hloop, -, rfl⟩ := hs
    obtain ⟨rfl, hdepth⟩ := silent_loopControl.mp hloop
    obtain rfl := hc.inLoop_iff.mpr hdepth
    exact ⟨Γ, .continueLoop, hc⟩
  | .expr value, Γ, _, _, _, _, ⟨_, hvalue⟩, hc, hs => by
    rw [checkStmt] at hs
    obtain ⟨ty, -, typed, hc'⟩ := checkExpr_typed hvalue hc hs
    exact ⟨Γ, .expr typed, hc'⟩

theorem checkStmts_typed : ∀ {body : List Stmt} {Γ : Context} {inLoop : Bool}
    {c c' : TypeChecker} {answer : Option Ty}, Stmt.AllEverywhere .declared body →
    c.Knows Γ inLoop → Silent (checkStmts body) c answer c' →
    ∃ Δ, AdmitsAll Γ inLoop body Δ ∧ c'.Knows Δ inLoop
  | [], Γ, _, _, _, _, _, hc, hs => by
    rw [checkStmts, silent_pure] at hs
    obtain ⟨-, rfl⟩ := hs
    exact ⟨Γ, .nil, hc⟩
  | [last], _, _, _, _, _, ⟨hlast, _⟩, hc, hs => by
    rw [checkStmts] at hs
    obtain ⟨Δ, admitted, hc'⟩ := checkStmt_typed hlast hc hs
    exact ⟨Δ, .cons admitted .nil, hc'⟩
  | first :: second :: rest, _, _, _, _, _, ⟨hfirst, hrest⟩, hc, hs => by
    rw [checkStmts_cons_cons, silent_bind] at hs
    obtain ⟨_, _, hs, hs'⟩ := hs
    obtain ⟨Δ, admitted, hc⟩ := checkStmt_typed hfirst hc hs
    obtain ⟨Δ', restAdmitted, hc'⟩ := checkStmts_typed hrest hc hs'
    exact ⟨Δ', .cons admitted restAdmitted, hc'⟩

end

/-! ## What has a type is passed silently -/

/-- Statements that have a type end with an expression. -/
lemma endsWithExpr_of_hasBodyType : ∀ {body : List Stmt} {Γ : Context} {ty : Ty},
    HasBodyType Γ body ty → endsWithExpr body = true
  | [_], _, _, .last _ => rfl
  | _ :: second :: rest, _, _, .behind _ typed => by
    simpa only [endsWithExpr] using endsWithExpr_of_hasBodyType typed

mutual

theorem checkExpr_passes : ∀ {e : Expr} {Γ : Context} {ty : Ty} {inLoop : Bool}
    {c : TypeChecker}, HasType Γ e ty → c.Knows Γ inLoop →
    ∃ c', Silent (checkExpr e) c (some ty) c' ∧ c'.Knows Γ inLoop
  | .literal _, _, _, _, c, .literal _ _, hc => by
    rw [checkExpr]
    exact ⟨c, silent_pure.mpr ⟨rfl, rfl⟩, hc⟩
  | .name _, _, _, _, c, .name known, hc => by
    rw [checkExpr]
    exact ⟨c, hc.silent_nameType_iff.mpr ⟨rfl, _, known, rfl⟩, hc⟩
  | .unary _ _ _, _, _, _, _, .unary typed row, hc => by
    obtain ⟨c₁, hs, hc₁⟩ := checkExpr_passes typed hc
    rw [checkExpr]
    refine ⟨c₁, silent_bind.mpr ⟨_, _, hs, ?_⟩, hc₁⟩
    exact silent_unaryType.mpr ⟨rfl, _, Ty.ofUnary?_eq_some_iff.mpr row, rfl⟩
  | .binary _ _ _ _, _, _, _, _, .binary leftTyped rightTyped row, hc => by
    obtain ⟨c₁, hs, hc₁⟩ := checkExpr_passes leftTyped hc
    obtain ⟨c₂, hs', hc₂⟩ := checkExpr_passes rightTyped hc₁
    simp only [checkExpr, silent_bind]
    refine ⟨c₂, ⟨_, _, hs, _, _, hs', ?_⟩, hc₂⟩
    exact silent_binaryType.mpr ⟨rfl, _, Ty.ofBinary?_eq_some_iff.mpr row, rfl⟩
  | .block _ _, _, _, _, _, .block typed, hc => by
    obtain ⟨c₁, hs, Δ, htail, hc₁⟩ := checkBody_passes typed hc.outsideLoops.enter
    refine ⟨_, silent_block.mpr ⟨endsWithExpr_of_hasBodyType typed, c₁, hs, rfl⟩, ?_⟩
    exact (hc₁.leave htail hc.ne_nil).setLoopDepth hc.inLoop_iff

theorem checkBody_passes : ∀ {body : List Stmt} {Γ : Context} {ty : Ty} {c : TypeChecker},
    HasBodyType Γ body ty → c.Knows Γ false →
    ∃ c', Silent (checkStmts body) c (some ty) c' ∧ ∃ Δ, Δ.tail = Γ.tail ∧ c'.Knows Δ false
  | [.expr _], Γ, _, _, .last typed, hc => by
    obtain ⟨c', hs, hc'⟩ := checkExpr_passes typed hc
    rw [checkStmts, checkStmt]
    exact ⟨c', hs, Γ, rfl, hc'⟩
  | _ :: second :: rest, _, _, _, .behind admitted typed, hc => by
    obtain ⟨_, c₁, hs, hc₁⟩ := checkStmt_passes admitted hc
    obtain ⟨c', hs', Δ, htail, hc'⟩ := checkBody_passes typed hc₁
    rw [checkStmts_cons_cons]
    exact ⟨c', silent_bind.mpr ⟨_, _, hs, hs'⟩, Δ, htail.trans admitted.tail_eq, hc'⟩

theorem checkStmt_passes : ∀ {s : Stmt} {Γ Δ : Context} {inLoop : Bool} {c : TypeChecker},
    Admits Γ inLoop s Δ → c.Knows Γ inLoop →
    ∃ answer c', Silent (checkStmt s) c answer c' ∧ c'.Knows Δ inLoop
  | .constDef _ _ _ line, _, _, _, _, .constDef typed annotated defined, hc => by
    obtain ⟨c₁, hs, hc₁⟩ := checkExpr_passes typed hc
    obtain ⟨c', hdef, hc'⟩ := hc₁.definition_silent line annotated defined
    simp only [checkStmt, silent_bind, silent_pure]
    exact ⟨none, c', ⟨_, _, hs, _, _, hdef, rfl, rfl⟩, hc'⟩
  | .varDef _ _ _ line, _, _, _, _, .varDef typed annotated defined, hc => by
    obtain ⟨c₁, hs, hc₁⟩ := checkExpr_passes typed hc
    obtain ⟨c', hdef, hc'⟩ := hc₁.definition_silent line annotated defined
    simp only [checkStmt, silent_bind, silent_pure]
    exact ⟨none, c', ⟨_, _, hs, _, _, hdef, rfl, rfl⟩, hc'⟩
  | .varDecl _ _ line, _, _, _, _, .varDecl annotated defined, hc => by
    obtain ⟨c', hdef, hc'⟩ := hc.declaration_silent line annotated defined
    simp only [checkStmt, silent_bind, silent_pure]
    exact ⟨none, c', ⟨_, _, hdef, rfl, rfl⟩, hc'⟩
  | .assign _ _ _, _, _, _, _, .assign typed known assignable, hc => by
    obtain ⟨c₁, hs, hc₁⟩ := checkExpr_passes typed hc
    simp only [checkStmt, silent_bind, silent_pure]
    refine ⟨none, c₁, ⟨_, _, hs, (), c₁, ?_, rfl, rfl⟩, hc₁⟩
    exact hc₁.silent_assignment_iff.mpr ⟨rfl, _, known, assignable, rfl⟩
  | .print _ _, _, _, _, _, .print typed, hc => by
    obtain ⟨c₁, hs, hc₁⟩ := checkExpr_passes typed hc
    simp only [checkStmt, silent_bind, silent_pure]
    exact ⟨none, c₁, ⟨_, _, hs, rfl, rfl⟩, hc₁⟩
  | .ifElse _ _ _ _, _, _, _, _, .ifElse typed thenAdmitted elseAdmitted, hc => by
    obtain ⟨c₁, hs, hc₁⟩ := checkExpr_passes typed hc
    obtain ⟨_, c₂, hs', hc₂⟩ := checkStmts_passes thenAdmitted hc₁.enter
    have hbetween := hc₂.leave thenAdmitted.tail_eq hc.ne_nil
    obtain ⟨_, c₃, hs'', hc₃⟩ := checkStmts_passes elseAdmitted hbetween.enter
    simp only [checkStmt_ifElse, silent_bind, silent_pure, silent_inScope]
    refine ⟨none, { c₃ with symbols := c₃.symbols.leave },
      ⟨_, _, hs, (), c₁, silent_condition.mpr ⟨rfl, rfl⟩, ?_⟩, ?_⟩
    · exact ⟨_, _, ⟨c₂, hs', rfl⟩, _, _, ⟨c₃, hs'', rfl⟩, rfl, rfl⟩
    · exact hc₃.leave elseAdmitted.tail_eq hc.ne_nil
  | .whileLoop _ _ _, _, _, _, _, .whileLoop typed admitted, hc => by
    obtain ⟨c₁, hs, hc₁⟩ := checkExpr_passes typed hc
    obtain ⟨_, c₂, hs', hc₂⟩ := checkStmts_passes admitted hc₁.insideLoop.enter
    have hbehind := hc₂.leave admitted.tail_eq hc.ne_nil
    have hloop := silent_insideLoop.mpr ⟨_, silent_inScope.mpr ⟨c₂, hs', rfl⟩, rfl⟩
    simp only [checkStmt_whileLoop, silent_bind, silent_pure]
    refine ⟨none, { c₂ with symbols := c₂.symbols.leave, loopDepth := c₁.loopDepth },
      ⟨_, _, hs, (), c₁, silent_condition.mpr ⟨rfl, rfl⟩, _, _, hloop, rfl, rfl⟩, ?_⟩
    exact hbehind.setLoopDepth hc₁.inLoop_iff
  | .breakLoop _, _, _, _, c, .breakLoop, hc => by
    simp only [checkStmt, silent_bind, silent_pure]
    refine ⟨none, c, ⟨(), c, ?_, rfl, rfl⟩, hc⟩
    exact silent_loopControl.mpr ⟨rfl, hc.inLoop_iff.mp rfl⟩
  | .continueLoop _, _, _, _, c, .continueLoop, hc => by
    simp only [checkStmt, silent_bind, silent_pure]
    refine ⟨none, c, ⟨(), c, ?_, rfl, rfl⟩, hc⟩
    exact silent_loopControl.mpr ⟨rfl, hc.inLoop_iff.mp rfl⟩
  | .expr _, _, _, _, _, .expr typed, hc => by
    obtain ⟨c', hs, hc'⟩ := checkExpr_passes typed hc
    rw [checkStmt]
    exact ⟨_, c', hs, hc'⟩

theorem checkStmts_passes : ∀ {body : List Stmt} {Γ Δ : Context} {inLoop : Bool}
    {c : TypeChecker}, AdmitsAll Γ inLoop body Δ → c.Knows Γ inLoop →
    ∃ answer c', Silent (checkStmts body) c answer c' ∧ c'.Knows Δ inLoop
  | [], _, _, _, c, .nil, hc => by
    rw [checkStmts]
    exact ⟨none, c, silent_pure.mpr ⟨rfl, rfl⟩, hc⟩
  | [_], _, _, _, _, .cons admitted .nil, hc => by
    rw [checkStmts]
    exact checkStmt_passes admitted hc
  | _ :: _ :: _, _, _, _, _, .cons admitted restAdmitted, hc => by
    obtain ⟨_, c₁, hs, hc₁⟩ := checkStmt_passes admitted hc
    obtain ⟨answer, c', hs', hc'⟩ := checkStmts_passes restAdmitted hc₁
    rw [checkStmts_cons_cons]
    exact ⟨answer, c', silent_bind.mpr ⟨_, _, hs, hs'⟩, hc'⟩

end

/-- A program is accepted if its statements are passed silently by a checker that is new. -/
lemma check_eq_ok_iff_silent {program : Program} :
    program.check = .ok () ↔ ∃ answer c', Silent (checkStmts program.body) new answer c' := by
  rw [Program.check, check]
  generalize hrun : (checkStmts program.body).run new = run
  obtain ⟨answer, c'⟩ := run
  constructor
  · intro hok
    by_cases hempty : c'.errors.isEmpty = true
    · exact ⟨answer, c', hrun, List.isEmpty_iff.mp hempty⟩
    · simp [hempty] at hok
  · rintro ⟨answer', c'', hs⟩
    obtain ⟨rfl, rfl⟩ := Prod.mk.inj (hrun.symm.trans hs.run_eq)
    simp [hs.errors_eq, new]

end TypeChecker

/-- The checker accepts every program that the typing rules admit. -/
lemma Program.check_of_wellTyped {program : Program} (h : program.WellTyped) :
    program.check = .ok () := by
  obtain ⟨Δ, admitted⟩ := h
  obtain ⟨answer, c', hs, -⟩ := TypeChecker.checkStmts_passes admitted TypeChecker.knows_new
  exact TypeChecker.check_eq_ok_iff_silent.mpr ⟨answer, c', hs⟩

/-- The checker accepts just the programs that the typing rules admit. -/
lemma Program.check_eq_ok_iff {program : Program} (declared : program.Declared) :
    program.check = .ok () ↔ program.WellTyped := by
  refine ⟨fun h => ?_, check_of_wellTyped⟩
  obtain ⟨_, _, hs⟩ := TypeChecker.check_eq_ok_iff_silent.mp h
  obtain ⟨Δ, admitted, -⟩ := TypeChecker.checkStmts_typed declared TypeChecker.knows_new hs
  exact ⟨Δ, admitted⟩

end BlockLang
