import BlockLang.Program.Document
import BlockLang.Proofs.Grammar.Spelling
import BlockLang.Proofs.Json.Blanks

/-!
# The document of a program

Programs that are read from texts are the same if their documents are written in the same way
(`Program.Spelled.eq_of_compact_eq`).  A document is determined by its text up to floats that are
not finite, which are written as `null`.  Literals have no sign and are numbers, and so the only
such float in a program is the positive infinity (`Literal.eq_of_asRead_eq`).

The proof goes along one of the trees.  The name of a node shows its form, except that variables
with and without a value have the same name.  These differ because a value that is missing is
written as `null`, and no expression is.
-/

namespace BlockLang

namespace Json

variable {name name' : String} {value value' : Json} {items items' : List Json}
  {fields fields' : List (String × Json)}

/-! ## Parts of documents -/

@[simp] lemma asRead_object_inj : (object fields).asRead = (object fields').asRead ↔
    asReadFields fields = asReadFields fields' := by
  simp [asRead]

@[simp] lemma asReadFields_cons_inj :
    asReadFields ((name, value) :: fields) = asReadFields ((name', value') :: fields') ↔
      (name = name' ∧ value.asRead = value'.asRead) ∧
        asReadFields fields = asReadFields fields' := by
  simp [asReadFields]

@[simp] lemma asRead_array_inj : (array items).asRead = (array items').asRead ↔
    asReadItems items = asReadItems items' := by
  simp [asRead]

@[simp] lemma asReadItems_cons_inj :
    asReadItems (value :: items) = asReadItems (value' :: items') ↔
      value.asRead = value'.asRead ∧ asReadItems items = asReadItems items' := by
  simp [asReadItems]

@[simp] lemma asRead_text_inj : (text name).asRead = (text name').asRead ↔ name = name' := by
  simp [asRead]

@[simp] lemma asRead_nat_inj {n n' : Nat} : (nat n).asRead = (nat n').asRead ↔ n = n' := by
  simp [nat, asRead]

end Json

/-! ## Literals -/

variable {x y : Float}

/-- Of the floats without a sign only the infinity is not written. -/
lemma Decimal.ofFloat_eq_of_documented?_eq_none (hsign : (Parts.ofFloat x).IsUnsigned)
    (h : documented? x = none) : Parts.ofFloat x = .infinite false := by
  obtain hzero | ⟨size, hfinite⟩ | hinfinite := hsign
  · rw [documented?, hzero] at h
    cases h
  · rw [documented?, hfinite] at h
    cases h
  · exact hinfinite

/-- Floats without a sign that are read as the same are the same, since only one of them is read as
nothing. -/
lemma Decimal.eq_of_asRead_float_eq (hx : (Parts.ofFloat x).IsUnsigned)
    (hy : (Parts.ofFloat y).IsUnsigned) (h : (Json.float x).asRead = (Json.float y).asRead) :
    x = y := by
  rw [Json.asRead, Json.asRead] at h
  split at h <;> split at h
  · exact Json.float.inj h
  · cases h
  · cases h
  · next hnone hnone' =>
    have hinfinite := ofFloat_eq_of_documented?_eq_none hx (by simpa using hnone)
    have hinfinite' := ofFloat_eq_of_documented?_eq_none hy (by simpa using hnone')
    exact Parts.eq_of_ofFloat (hinfinite.trans hinfinite'.symm) (by simp [hinfinite])

/-- Literals without a sign that are read as the same are the same. -/
lemma Literal.eq_of_asRead_eq {value value' : Literal} (h : value.IsUnsigned)
    (h' : value'.IsUnsigned) (heq : value.document.asRead = value'.document.asRead) :
    value = value' := by
  cases value with
  | int n line =>
    cases value' with
    | int n' line' =>
      obtain ⟨hvalue, rfl⟩ : (Json.int n.toInt).asRead = (Json.int n'.toInt).asRead ∧
          line = line' := by simpa [document] using heq
      rw [Int64.toInt_inj.mp (Json.int.inj hvalue)]
    | _ => simp [document] at heq
  | float x line =>
    cases value' with
    | float y line' =>
      obtain ⟨hvalue, rfl⟩ : (Json.float x).asRead = (Json.float y).asRead ∧ line = line' := by
        simpa [document] using heq
      rw [Decimal.eq_of_asRead_float_eq h h' hvalue]
    | _ => simp [document] at heq
  | bool b line =>
    cases value' with
    | bool b' line' =>
      obtain ⟨hvalue, rfl⟩ : (Json.bool b).asRead = (Json.bool b').asRead ∧ line = line' := by
        simpa [document] using heq
      rw [Json.bool.inj hvalue]
    | _ => simp [document] at heq
  | char c line =>
    cases value' with
    | char c' line' =>
      obtain ⟨hvalue, rfl⟩ : String.singleton c = String.singleton c' ∧ line = line' := by
        simpa [document] using heq
      obtain rfl : c = c' := by simpa using congrArg String.toList hvalue
      rfl
    | _ => simp [document] at heq

/-! ## Names and operators -/

@[simp] lemma Ident.asRead_document_inj {ident ident' : Ident} :
    ident.document.asRead = ident'.document.asRead ↔ ident = ident' := by
  obtain ⟨name, line⟩ := ident
  obtain ⟨name', line'⟩ := ident'
  simp [document]

/-- A name that is missing is not read as a name. -/
@[simp] lemma Ident.asRead_option_inj {ty ty' : Option Ident} :
    (Json.option document ty).asRead = (Json.option document ty').asRead ↔ ty = ty' := by
  cases ty with
  | none =>
    cases ty' with
    | none => simp
    | some ident' => simp [Json.option, document, Json.asRead]
  | some ident =>
    cases ty' with
    | none => simp [Json.option, document, Json.asRead]
    | some ident' => simp [Json.option]

@[simp] lemma BinOp.label_inj {op op' : BinOp} : op.label = op'.label ↔ op = op' := by
  constructor
  · cases op <;> cases op' <;> simp [label]
  · exact congrArg label

@[simp] lemma UnaryOp.label_inj {op op' : UnaryOp} : op.label = op'.label ↔ op = op' := by
  constructor
  · cases op <;> cases op' <;> simp [label]
  · exact congrArg label

/-! ## Trees -/

/-- An expression is not missing. -/
@[simp] lemma Expr.asRead_document_ne_null (e : Expr) :
    e.document.asRead ≠ Json.null.asRead := by
  cases e <;> simp [document, Json.node, Json.asRead]

@[simp] lemma Expr.null_ne_asRead_document (e : Expr) :
    Json.null.asRead ≠ e.document.asRead :=
  e.asRead_document_ne_null.symm

mutual

theorem Expr.eq_of_asRead_eq : ∀ {e e' : Expr}, e.Everywhere .spelled → e'.Everywhere .spelled →
    e.document.asRead = e'.document.asRead → e = e'
  | .literal value, e', h, h', heq => by
    cases e' with
    | literal value' =>
      have hvalue : value.document.asRead = value'.document.asRead := by
        simpa [Expr.document] using heq
      rw [Literal.eq_of_asRead_eq h h' hvalue]
    | _ => simp [Expr.document, Json.node] at heq
  | .name ident, e', _, _, heq => by
    cases e' with
    | name ident' => simpa [Expr.document] using heq
    | _ => simp [Expr.document, Json.node] at heq
  | .unary op operand line, e', h, h', heq => by
    cases e' with
    | unary op' operand' line' =>
      obtain ⟨rfl, hoperand, rfl⟩ : op = op' ∧
          operand.document.asRead = operand'.document.asRead ∧ line = line' := by
        simpa [Expr.document, Json.node] using heq
      rw [Expr.eq_of_asRead_eq h.2 h'.2 hoperand]
    | _ => simp [Expr.document, Json.node] at heq
  | .binary op left right line, e', h, h', heq => by
    cases e' with
    | binary op' left' right' line' =>
      obtain ⟨rfl, hleft, hright, rfl⟩ : op = op' ∧ left.document.asRead = left'.document.asRead ∧
          right.document.asRead = right'.document.asRead ∧ line = line' := by
        simpa [Expr.document, Json.node] using heq
      rw [Expr.eq_of_asRead_eq h.2.1 h'.2.1 hleft, Expr.eq_of_asRead_eq h.2.2 h'.2.2 hright]
    | _ => simp [Expr.document, Json.node] at heq
  | .block body line, e', h, h', heq => by
    cases e' with
    | block body' line' =>
      obtain ⟨hbody, rfl⟩ : Json.asReadItems (Stmt.documents body) =
          Json.asReadItems (Stmt.documents body') ∧ line = line' := by
        simpa [Expr.document, Json.node, Json.statements] using heq
      rw [Stmt.eq_of_asReadItems_eq h.2 h'.2 hbody]
    | _ => simp [Expr.document, Json.node] at heq

theorem Stmt.eq_of_asRead_eq : ∀ {s s' : Stmt}, s.Everywhere .spelled → s'.Everywhere .spelled →
    s.document.asRead = s'.document.asRead → s = s'
  | .constDef name ty value line, s', h, h', heq => by
    cases s' with
    | constDef name' ty' value' line' =>
      obtain ⟨rfl, rfl, hvalue, rfl⟩ : name = name' ∧ ty = ty' ∧
          value.document.asRead = value'.document.asRead ∧ line = line' := by
        simpa [Stmt.document, Json.node] using heq
      rw [Expr.eq_of_asRead_eq h.2 h'.2 hvalue]
    | _ => simp [Stmt.document, Json.node] at heq
  | .varDef name ty value line, s', h, h', heq => by
    cases s' with
    | varDef name' ty' value' line' =>
      obtain ⟨rfl, rfl, hvalue, rfl⟩ : name = name' ∧ ty = ty' ∧
          value.document.asRead = value'.document.asRead ∧ line = line' := by
        simpa [Stmt.document, Json.node] using heq
      rw [Expr.eq_of_asRead_eq h.2 h'.2 hvalue]
    | _ => simp [Stmt.document, Json.node] at heq
  | .varDecl name ty line, s', _, _, heq => by
    cases s' with
    | varDecl name' ty' line' => simpa [Stmt.document, Json.node] using heq
    | _ => simp [Stmt.document, Json.node] at heq
  | .assign target value line, s', h, h', heq => by
    cases s' with
    | assign target' value' line' =>
      obtain ⟨rfl, hvalue, rfl⟩ : target = target' ∧
          value.document.asRead = value'.document.asRead ∧ line = line' := by
        simpa [Stmt.document, Json.node] using heq
      rw [Expr.eq_of_asRead_eq h.2 h'.2 hvalue]
    | _ => simp [Stmt.document, Json.node] at heq
  | .print value line, s', h, h', heq => by
    cases s' with
    | print value' line' =>
      obtain ⟨hvalue, rfl⟩ : value.document.asRead = value'.document.asRead ∧ line = line' := by
        simpa [Stmt.document, Json.node] using heq
      rw [Expr.eq_of_asRead_eq h.2 h'.2 hvalue]
    | _ => simp [Stmt.document, Json.node] at heq
  | .ifElse test thenBlock elseBlock line, s', h, h', heq => by
    cases s' with
    | ifElse test' thenBlock' elseBlock' line' =>
      obtain ⟨htest, hthen, helse, rfl⟩ : test.document.asRead = test'.document.asRead ∧
          Json.asReadItems (Stmt.documents thenBlock) =
            Json.asReadItems (Stmt.documents thenBlock') ∧
          Json.asReadItems (Stmt.documents elseBlock) =
            Json.asReadItems (Stmt.documents elseBlock') ∧ line = line' := by
        simpa [Stmt.document, Json.node, Json.statements] using heq
      obtain ⟨-, hs, hthenBlock, helseBlock⟩ := h
      obtain ⟨-, hs', hthenBlock', helseBlock'⟩ := h'
      rw [Expr.eq_of_asRead_eq hs hs' htest,
        Stmt.eq_of_asReadItems_eq hthenBlock hthenBlock' hthen,
        Stmt.eq_of_asReadItems_eq helseBlock helseBlock' helse]
    | _ => simp [Stmt.document, Json.node] at heq
  | .whileLoop test body line, s', h, h', heq => by
    cases s' with
    | whileLoop test' body' line' =>
      obtain ⟨htest, hbody, rfl⟩ : test.document.asRead = test'.document.asRead ∧
          Json.asReadItems (Stmt.documents body) =
            Json.asReadItems (Stmt.documents body') ∧ line = line' := by
        simpa [Stmt.document, Json.node, Json.statements] using heq
      rw [Expr.eq_of_asRead_eq h.2.1 h'.2.1 htest, Stmt.eq_of_asReadItems_eq h.2.2 h'.2.2 hbody]
    | _ => simp [Stmt.document, Json.node] at heq
  | .breakLoop line, s', _, _, heq => by
    cases s' with
    | breakLoop line' => simpa [Stmt.document, Json.node] using heq
    | _ => simp [Stmt.document, Json.node] at heq
  | .continueLoop line, s', _, _, heq => by
    cases s' with
    | continueLoop line' => simpa [Stmt.document, Json.node] using heq
    | _ => simp [Stmt.document, Json.node] at heq
  | .expr value, s', h, h', heq => by
    cases s' with
    | expr value' =>
      have hvalue : value.document.asRead = value'.document.asRead := by
        simpa [Stmt.document] using heq
      rw [Expr.eq_of_asRead_eq h.2 h'.2 hvalue]
    | _ => simp [Stmt.document, Json.node] at heq

theorem Stmt.eq_of_asReadItems_eq : ∀ {body body' : List Stmt}, Stmt.AllEverywhere .spelled body →
    Stmt.AllEverywhere .spelled body' →
    Json.asReadItems (Stmt.documents body) = Json.asReadItems (Stmt.documents body') → body = body'
  | [], [], _, _, _ => rfl
  | [], _ :: _, _, _, heq => by simp [Stmt.documents, Json.asReadItems] at heq
  | _ :: _, [], _, _, heq => by simp [Stmt.documents, Json.asReadItems] at heq
  | first :: rest, first' :: rest', h, h', heq => by
    obtain ⟨hfirst, hrest⟩ : first.document.asRead = first'.document.asRead ∧
        Json.asReadItems (Stmt.documents rest) = Json.asReadItems (Stmt.documents rest') := by
      simpa [Stmt.documents] using heq
    rw [Stmt.eq_of_asRead_eq h.1 h'.1 hfirst, Stmt.eq_of_asReadItems_eq h.2 h'.2 hrest]

end

/-! ## Programs -/

variable {program program' : Program}

/-- Programs without signs in their literals are the same if their documents are written in the
same way. -/
theorem Program.Spelled.eq_of_compact_eq (h : program.Spelled) (h' : program'.Spelled)
    (heq : program.document.compact = program'.document.compact) : program = program' := by
  obtain ⟨body⟩ := program
  obtain ⟨body'⟩ := program'
  have hread := Json.asRead_eq_of_compact_eq heq
  have hbody : Json.asReadItems (Stmt.documents body) =
      Json.asReadItems (Stmt.documents body') := by
    simpa [document, Json.statements] using hread
  exact congrArg Program.mk (Stmt.eq_of_asReadItems_eq h h' hbody)

namespace Source

variable {source source' : String}

/-- Sources with the same document in lines have the same program. -/
theorem eq_of_pretty_eq (h : parse source = .done program) (h' : parse source' = .done program')
    (heq : program.document.pretty = program'.document.pretty) : program = program' := by
  refine (spelled_of_parse h).eq_of_compact_eq (spelled_of_parse h') ?_
  rw [← Json.dense_pretty, heq, Json.dense_pretty]

/-- The document of a program identifies the program.  Programs that are read from sources are the
same, with all lines, names, operators and literals, if their documents in one line are the same,
and the document in lines is the one in one line and blanks that are not inside of quotes. -/
theorem document_identifies_program (h : parse source = .done program)
    (h' : parse source' = .done program') :
    (program.document.compact = program'.document.compact → program = program') ∧
      Json.dense program.document.pretty = program.document.compact :=
  ⟨(spelled_of_parse h).eq_of_compact_eq (spelled_of_parse h'),
    Json.dense_pretty program.document⟩

/-- A quote as a character, written in two ways, and an alternative that is empty or missing. -/
theorem document_identifies_program_quote :
    ∃ program program',
      parse "if true \x7b var c = '\"'; \x7d" = .done program ∧
      parse "if true \x7b var c = '\\x22'; \x7d else \x7b\x7d" = .done program' ∧
      program.document.compact = program'.document.compact ∧ program = program' ∧
      Json.dense program.document.pretty = program.document.compact := by
  have hbare : parse "if true \x7b var c = '\"'; \x7d" = .done ⟨[.ifElse
      (.literal (.bool true 1)) [.varDef ⟨"c", 1⟩ none (.literal (.char '"' 1)) 1] [] 1]⟩ := by cbv
  have hcode : parse "if true \x7b var c = '\\x22'; \x7d else \x7b\x7d" = .done ⟨[.ifElse
      (.literal (.bool true 1)) [.varDef ⟨"c", 1⟩ none (.literal (.char '"' 1)) 1] [] 1]⟩ := by cbv
  obtain ⟨hidentifies, hdense⟩ := document_identifies_program hbare hcode
  exact ⟨_, _, hbare, hcode, rfl, hidentifies rfl, hdense⟩

end Source

end BlockLang
