import BlockLang.Proofs.Decimal.ReadBack
import BlockLang.Proofs.Grammar.Recovery
import BlockLang.Proofs.Layout.Scanning

/-!
# The words of a canonical form are derived

The words of the canonical form of a tree are the text of a derivation, and the tree of this
derivation is the original one up to the lines (`Stmt.allDerived`).

An expression is a phrase of the tier that its top operator asks for (`Expr.tier`).  The
parentheses of the canonical form are there just where an operand would be of a higher tier than
the grammar admits (`Expr.piecesAt`), so that all other operands can stand as they are.

The proofs go through the pieces from left to right.  Each step takes the tokens of one part and
leaves the tokens that the remaining pieces spell (`Piece.Spells`).
-/

namespace BlockLang

open Grammar Piece

/-! ## Tokens that spell pieces -/

/-- The tokens are the words among the pieces, on whatever lines. -/
def Piece.Spells (pieces : List Piece) (ts : List Token) : Prop :=
  ts.map Token.spelled = words pieces

namespace Piece.Spells

variable {rest : List Piece} {ts : List Token} {kind : TokenKind} {text : String}

lemma eq_nil (h : Spells [] ts) : ts = [] :=
  List.map_eq_nil_iff.mp h

lemma space (h : Spells (.space :: rest) ts) : Spells rest ts :=
  h

lemma newline (h : Spells (.newline :: rest) ts) : Spells rest ts :=
  h

lemma indent {level : Nat} (h : Spells (.indent level :: rest) ts) : Spells rest ts :=
  h

lemma word (h : Spells (.word kind text :: rest) ts) :
    ∃ (line : Nat) (ts' : List Token), ts = ⟨kind, text, line⟩ :: ts' ∧ Spells rest ts' := by
  have hwords : words (.word kind text :: rest) = (kind, text) :: words rest := rfl
  rw [Spells, hwords] at h
  obtain ⟨⟨_, _, line⟩, ts', rfl, hspelled, hrest⟩ := List.map_eq_cons_iff.mp h
  obtain ⟨rfl, rfl⟩ := Prod.mk.inj hspelled
  exact ⟨line, ts', rfl, hrest⟩

/-- A mark has no value that could not be read. -/
lemma mark (h : Spells (.mark kind :: rest) ts)
    (hkind : kind ∉ [TokenKind.integer, .float, .char]) :
    ∃ (word : Word kind) (ts' : List Token),
      ts = word.1 :: ts' ∧ word.1.HasValue ∧ Spells rest ts' := by
  obtain ⟨line, ts', rfl, hrest⟩ := h.word
  exact ⟨⟨⟨kind, _, line⟩, rfl⟩, ts', rfl, Parser.hasValue_word ⟨_, rfl⟩ hkind, hrest⟩

lemma name {ident : Ident} (h : Spells (ident.word :: rest) ts) :
    ∃ (word : Word .name) (ts' : List Token), ts = word.1 :: ts' ∧ word.1.HasValue ∧
      (Grammar.ident word).eraseLine = ident.eraseLine ∧ Spells rest ts' := by
  obtain ⟨line, ts', rfl, hrest⟩ := h.word
  have hvalue := Parser.hasValue_word (⟨⟨.name, ident.name, line⟩, rfl⟩ : Word .name) (by decide)
  exact ⟨⟨⟨.name, _, line⟩, rfl⟩, ts', rfl, hvalue, rfl, hrest⟩

lemma typeWords {ty : Option Ident} (h : Spells (Ident.typeWords ty ++ rest) ts) :
    ∃ (word : Option (Word .name)) (ts' : List Token), ts = optionalTokens word ++ ts' ∧
      Legible (optionalTokens word) ∧
      (word.map Grammar.ident).map Ident.eraseLine = ty.map Ident.eraseLine ∧
      Spells rest ts' := by
  cases ty with
  | none => exact ⟨none, ts, rfl, legible_nil, rfl, h⟩
  | some tyName =>
    obtain ⟨word, ts', rfl, _, hname, hrest⟩ := h.space.name
    exact ⟨some word, ts', rfl, Parser.legible_optionalTokens _, congrArg some hname, hrest⟩

/-- The token for a literal has its value. -/
lemma literal {value : Literal} (h : Spells (value.word :: rest) ts) (hvalue : value.IsWritten)
    (hfloat : (Expr.literal value).ReadsBack) :
    ∃ (word : LiteralWord) (ts' : List Token), ts = word.1 :: ts' ∧ word.1.HasValue ∧
      (literalValue word).eraseLine = value.eraseLine ∧ Spells rest ts' := by
  cases value with
  | int value line =>
    obtain ⟨line', ts', rfl, hrest⟩ := h.word
    obtain ⟨hlt, hsame⟩ := ofDigits_toString hvalue
    refine ⟨⟨⟨.integer, _, line'⟩, by simp⟩, ts', rfl, ⟨_, if_pos hlt⟩, ?_, hrest⟩
    simp only [literalValue, Literal.eraseLine, hsame]
  | float value line =>
    obtain ⟨line', ts', rfl, hrest⟩ := h.word
    have hread : Decimal.ofText? (Decimal.plain value) = some value := hfloat
    refine ⟨⟨⟨.float, _, line'⟩, by simp⟩, ts', rfl, ?_, ?_, hrest⟩
    · simp [Token.HasValue, Parser.literalOf, hread]
    · simp [literalValue, Literal.eraseLine, hread]
  | bool value line =>
    cases value with
    | true =>
      obtain ⟨line', ts', rfl, hrest⟩ := h.word
      exact ⟨⟨⟨.kwTrue, _, line'⟩, by simp⟩, ts', rfl, ⟨_, rfl⟩, rfl, hrest⟩
    | false =>
      obtain ⟨line', ts', rfl, hrest⟩ := h.word
      exact ⟨⟨⟨.kwFalse, _, line'⟩, by simp⟩, ts', rfl, ⟨_, rfl⟩, rfl, hrest⟩
  | char value line =>
    obtain ⟨line', ts', rfl, hrest⟩ := h.word
    refine ⟨⟨⟨.char, _, line'⟩, by simp⟩, ts', rfl, ?_, ?_, hrest⟩
    · simp [Token.HasValue, Parser.literalOf, CharConstant.unquote?_quote]
    · simp [literalValue, Literal.eraseLine, CharConstant.unquote?_quote]

end Piece.Spells

/-! ## Tiers and parentheses -/

/-- The tier of an expression that is not in parentheses. -/
def Expr.tier : Expr → Nat
  | .binary op _ _ _ => 6 - op.precedence
  | _ => 0

lemma Expr.tier_le (e : Expr) : e.tier ≤ 5 := by
  cases e with
  | binary op left right line =>
    rw [Expr.tier]
    cases op <;> decide
  | _ => exact Nat.zero_le 5

/-- An expression where a phrase of tier `n` is asked for: in parentheses if it is of a higher
tier. -/
def Expr.piecesAt (n level : Nat) (e : Expr) : List Piece :=
  if n < e.tier then Piece.parenthesized (e.pieces level) else e.pieces level

lemma Expr.piecesAt_of_tier_le {e : Expr} {n : Nat} (h : e.tier ≤ n) (level : Nat) :
    e.piecesAt n level = e.pieces level :=
  if_neg (Nat.not_lt.mpr h)

@[simp] lemma Expr.piecesAt_five (e : Expr) (level : Nat) : e.piecesAt 5 level = e.pieces level :=
  piecesAt_of_tier_le e.tier_le level

/-- Behind a sign a factor is asked for. -/
lemma Expr.pieces_unary (op : UnaryOp) (operand : Expr) (line level : Nat) :
    (unary op operand line).pieces level = .mark op.token :: operand.piecesAt 0 level := by
  have hencloses : UnaryOp.encloses operand = decide (0 < operand.tier) := by
    cases operand with
    | binary op' left right line =>
      rw [Expr.tier]
      cases op' <;> rfl
    | _ => rfl
  simp only [Expr.pieces, Expr.piecesAt, hencloses, decide_eq_true_eq]

/-- To the left of an operator a phrase of its own tier is asked for, since operators of one tier
associate to the left, and to the right a phrase of the tier below. -/
lemma Expr.pieces_binary {op : BinOp} {n : Nat} (hn : op.precedence + n = 5) (left right : Expr)
    (line level : Nat) : (binary op left right line).pieces level =
      left.piecesAt (n + 1) level ++ [.space, .mark op.token, .space] ++
        right.piecesAt n level := by
  have hleft : op.enclosesLeft left = decide (n + 1 < left.tier) := by
    cases left with
    | binary op' left right line =>
      refine decide_eq_decide.mpr ?_
      rw [Expr.tier]
      omega
    | _ => rfl
  have hright : op.enclosesRight right = decide (n < right.tier) := by
    cases right with
    | binary op' left right line =>
      refine decide_eq_decide.mpr ?_
      rw [Expr.tier]
      omega
    | _ => rfl
  simp only [Expr.pieces, Expr.piecesAt, hleft, hright, decide_eq_true_eq]

/-! ## Derivations of parts -/

/-- The tokens begin with a phrase of tier `n` for the expression, and `rest` is spelled behind
it. -/
def Expr.Derived (n : Nat) (e : Expr) (rest : List Piece) (ts : List Token) : Prop :=
  ∃ (d : Tier n) (ts' : List Token), ts = d.tokens ++ ts' ∧ Legible d.tokens ∧
    d.tree.eraseLines = e.eraseLines ∧ Spells rest ts'

/-- The tokens begin with statements, and `rest` is spelled behind them. -/
def Stmt.AllDerived (body : List Stmt) (rest : List Piece) (ts : List Token) : Prop :=
  ∃ (d : Statements) (ts' : List Token), ts = d.tokens ++ ts' ∧ Legible d.tokens ∧
    Stmt.eraseAllLines d.tree = Stmt.eraseAllLines body ∧ Spells rest ts'

variable {e : Expr} {n k : Nat} {rest pieces : List Piece} {ts : List Token}

namespace Expr.Derived

lemma raise (h : e.Derived k rest ts) (hk : k ≤ n) : e.Derived n rest ts := by
  obtain ⟨d, ts', rfl, legible, htree, hrest⟩ := h
  obtain ⟨d', htokens, htree'⟩ := d.exists_raise hk
  exact ⟨d', ts', by rw [htokens], by rwa [htokens], by rwa [htree'], hrest⟩

/-- An operand is a phrase of any tier. -/
lemma primary {d : Primary} {ts' : List Token} (legible : Legible d.tokens)
    (htree : d.tree.eraseLines = e.eraseLines) (hrest : Spells rest ts') :
    e.Derived n rest (d.tokens ++ ts') :=
  raise (k := 0) ⟨.factor (.primary d), ts', rfl, legible, htree, hrest⟩ (Nat.zero_le n)

/-- An operand is a phrase of the tier that is asked for, since it is in parentheses where it would
not be of this tier otherwise. -/
lemma enclosed {level : Nat}
    (he : ∀ rest ts, Spells (e.pieces level ++ rest) ts → e.Derived e.tier rest ts)
    (h : Spells (e.piecesAt n level ++ rest) ts) : e.Derived n rest ts := by
  unfold Expr.piecesAt at h
  split at h
  · simp only [Piece.parenthesized, List.cons_append, List.append_assoc, List.nil_append] at h
    obtain ⟨opening, _, rfl, hopening, h⟩ := h.mark (by decide)
    obtain ⟨d, _, rfl, legible, htree, h⟩ := (he _ _ h).raise e.tier_le
    obtain ⟨closing, _, rfl, hclosing, h⟩ := h.mark (by decide)
    have hparens := primary (n := n) (d := .parens opening d closing)
      (by simp [Primary.tokens, hopening, legible, hclosing]) htree h
    simpa [Primary.tokens] using hparens
  · next htier => exact (he rest ts h).raise (Nat.not_lt.mp htier)

end Expr.Derived

/-- A block, from its opening to its closing brace. -/
lemma Piece.Spells.block {body : List Stmt} {level : Nat} {rest : List Piece} {ts : List Token}
    (h : Spells (.mark .lbrace :: .newline :: (Stmt.blockPieces (level + 1) body ++
      .indent level :: .mark .rbrace :: rest)) ts)
    (hbody : ∀ rest ts, Spells (Stmt.blockPieces (level + 1) body ++ rest) ts →
      Stmt.AllDerived body rest ts) :
    ∃ (d : Block) (ts' : List Token), ts = d.tokens ++ ts' ∧ Legible d.tokens ∧
      Stmt.eraseAllLines d.body = Stmt.eraseAllLines body ∧ Spells rest ts' := by
  obtain ⟨opening, _, rfl, hopening, h⟩ := h.mark (by decide)
  obtain ⟨d, _, rfl, legible, htree, h⟩ := hbody _ _ h.newline
  obtain ⟨closing, ts', rfl, hclosing, h⟩ := h.indent.mark (by decide)
  exact ⟨.braces opening d closing, ts', by simp [Block.tokens],
    by simp [Block.tokens, hopening, legible, hclosing], htree, h⟩

/-! ## Derivations of trees -/

mutual

lemma Expr.derived : ∀ {e : Expr}, e.Everywhere .wellFormed → e.Everywhere .floatsReadBack →
    ∀ (level : Nat) (rest : List Piece) (ts : List Token), Spells (e.pieces level ++ rest) ts →
      e.Derived e.tier rest ts
  | .literal value, hw, hf, level, rest, ts, h => by
    obtain ⟨word, ts', rfl, hvalue, hsame, h⟩ := h.literal hw hf
    exact .primary (d := .literal word) (by simp [Primary.tokens, hvalue])
      (congrArg Expr.literal hsame) h
  | .name ident, _, _, level, rest, ts, h => by
    obtain ⟨word, ts', rfl, hvalue, hsame, h⟩ := h.name
    exact .primary (d := .name word) (by simp [Primary.tokens, hvalue])
      (congrArg Expr.name hsame) h
  | .unary op operand line, hw, hf, level, rest, ts, h => by
    rw [Expr.pieces_unary, List.cons_append] at h
    obtain ⟨sign, _, rfl, hsign, h⟩ := h.mark (by cases op <;> decide)
    obtain ⟨⟨f⟩, ts', rfl, legible, htree, h⟩ :=
      Expr.Derived.enclosed (operand.derived hw.2 hf.2 level) h
    rw [Tier.tokens] at legible
    rw [Tier.tree] at htree
    refine ⟨.factor (.signed op sign f), ts', rfl, ?_, ?_, h⟩
    · simp [Tier.tokens, Factor.tokens, hsign, legible]
    · simp [Tier.tree, Factor.tree, Expr.eraseLines, htree]
  | .binary op left right line, hw, hf, level, rest, ts, h => by
    obtain ⟨n, hn⟩ : ∃ n, op.precedence + n = 5 := ⟨5 - op.precedence, by cases op <;> decide⟩
    have htier : (Expr.binary op left right line).tier = n + 1 := by
      rw [Expr.tier]
      omega
    simp only [Expr.pieces_binary hn, List.append_assoc, List.cons_append, List.nil_append] at h
    obtain ⟨d, _, rfl, legible, htree, h⟩ :=
      Expr.Derived.enclosed (left.derived hw.2.1 hf.2.1 level) h
    obtain ⟨sign, _, rfl, hsign, h⟩ := h.space.mark (by cases op <;> decide)
    obtain ⟨d', ts', rfl, legible', htree', h⟩ :=
      Expr.Derived.enclosed (right.derived hw.2.2 hf.2.2 level) h.space
    have atTier : op ∈ operatorsAt n := mem_operatorsAt_iff.mpr hn
    rw [htier]
    refine ⟨.link op atTier sign d' d, ts', ?_, ?_, ?_, h⟩
    · rw [Tier.tokens_link, List.append_assoc, List.cons_append]
    · simp [Tier.tokens_link, legible, hsign, legible']
    · rw [Tier.tree_link, Expr.eraseLines, Expr.eraseLines, htree, htree']
  | .block body line, hw, hf, level, rest, ts, h => by
    simp only [Expr.pieces, List.append_assoc, List.cons_append, List.nil_append] at h
    obtain ⟨d, ts', rfl, legible, hbody, h⟩ := h.block (Stmt.allDerived hw.2 hf.2 (level + 1))
    exact .primary (d := .block d) legible (congrArg (Expr.block · 0) hbody) h

lemma Stmt.derived : ∀ {s : Stmt}, s.Everywhere .wellFormed → s.Everywhere .floatsReadBack →
    ∀ (level : Nat) (rest : List Piece) (ts : List Token), Spells (s.pieces level ++ rest) ts →
      ∃ (d : Statement) (ts' : List Token), ts = d.tokens ++ ts' ∧ Legible d.tokens ∧
        d.tree.eraseLines = s.eraseLines ∧ Spells rest ts'
  | .constDef name ty value line, hw, hf, level, rest, ts, h => by
    obtain ⟨⟨_, _, literal, rfl⟩, hw⟩ := hw
    simp only [Stmt.pieces, Expr.pieces, List.append_assoc, List.cons_append,
      List.nil_append] at h
    obtain ⟨keyword, _, rfl, hkeyword, h⟩ := h.indent.mark (by decide)
    obtain ⟨nameWord, _, rfl, hnameWord, hname, h⟩ := h.space.name
    obtain ⟨tyWord, _, rfl, htyWord, hty, h⟩ := h.typeWords
    obtain ⟨sign, _, rfl, hsign, h⟩ := h.space.mark (by decide)
    obtain ⟨word, _, rfl, hword, hvalue, h⟩ := h.space.literal hw hf.2
    obtain ⟨semi, ts', rfl, hsemi, h⟩ := h.mark (by decide)
    refine ⟨.constDef keyword nameWord tyWord sign (.bare word) semi, ts', ?_, ?_, ?_, h⟩
    · simp [Statement.tokens, Wrapped.tokens]
    · simp [Statement.tokens, Wrapped.tokens, hkeyword, hnameWord, htyWord, hsign, hword, hsemi]
    · simp [Statement.tree, Wrapped.word, Stmt.eraseLines, Expr.eraseLines, hname, hvalue, ← hty]
  | .varDef name ty value line, hw, hf, level, rest, ts, h => by
    simp only [Stmt.pieces, List.append_assoc, List.cons_append, List.nil_append] at h
    obtain ⟨keyword, _, rfl, hkeyword, h⟩ := h.indent.mark (by decide)
    obtain ⟨nameWord, _, rfl, hnameWord, hname, h⟩ := h.space.name
    obtain ⟨tyWord, _, rfl, htyWord, hty, h⟩ := h.typeWords
    obtain ⟨sign, _, rfl, hsign, h⟩ := h.space.mark (by decide)
    obtain ⟨d, _, rfl, legible, htree, h⟩ :=
      (value.derived hw.2 hf.2 level _ _ h.space).raise value.tier_le
    obtain ⟨semi, ts', rfl, hsemi, h⟩ := h.mark (by decide)
    refine ⟨.varDef keyword nameWord tyWord sign d semi, ts', ?_, ?_, ?_, h⟩
    · simp [Statement.tokens]
    · simp [Statement.tokens, hkeyword, hnameWord, htyWord, hsign, legible, hsemi]
    · simp [Statement.tree, Stmt.eraseLines, hname, htree, ← hty]
  | .varDecl name ty line, hw, hf, level, rest, ts, h => by
    simp only [Stmt.pieces, List.append_assoc, List.cons_append, List.nil_append] at h
    obtain ⟨keyword, _, rfl, hkeyword, h⟩ := h.indent.mark (by decide)
    obtain ⟨nameWord, _, rfl, hnameWord, hname, h⟩ := h.space.name
    obtain ⟨tyWord, _, rfl, htyWord, hty, h⟩ := h.typeWords
    obtain ⟨semi, ts', rfl, hsemi, h⟩ := h.mark (by decide)
    refine ⟨.varDecl keyword nameWord tyWord semi, ts', ?_, ?_, ?_, h⟩
    · simp [Statement.tokens]
    · simp [Statement.tokens, hkeyword, hnameWord, htyWord, hsemi]
    · simp [Statement.tree, Stmt.eraseLines, hname, ← hty]
  | .assign target value line, hw, hf, level, rest, ts, h => by
    simp only [Stmt.pieces, List.append_assoc, List.cons_append, List.nil_append] at h
    obtain ⟨targetWord, _, rfl, htargetWord, htarget, h⟩ := h.indent.name
    obtain ⟨sign, _, rfl, hsign, h⟩ := h.space.mark (by decide)
    obtain ⟨d, _, rfl, legible, htree, h⟩ :=
      (value.derived hw.2 hf.2 level _ _ h.space).raise value.tier_le
    obtain ⟨semi, ts', rfl, hsemi, h⟩ := h.mark (by decide)
    refine ⟨.assign (.bare targetWord) sign d semi, ts', ?_, ?_, ?_, h⟩
    · simp [Statement.tokens, Wrapped.tokens]
    · simp [Statement.tokens, Wrapped.tokens, htargetWord, hsign, legible, hsemi]
    · simp [Statement.tree, Wrapped.word, Stmt.eraseLines, htarget, htree]
  | .print value line, hw, hf, level, rest, ts, h => by
    simp only [Stmt.pieces, List.append_assoc, List.cons_append, List.nil_append] at h
    obtain ⟨keyword, _, rfl, hkeyword, h⟩ := h.indent.mark (by decide)
    obtain ⟨d, _, rfl, legible, htree, h⟩ :=
      (value.derived hw.2 hf.2 level _ _ h.space).raise value.tier_le
    obtain ⟨semi, ts', rfl, hsemi, h⟩ := h.mark (by decide)
    refine ⟨.print keyword d semi, ts', ?_, ?_, ?_, h⟩
    · simp [Statement.tokens]
    · simp [Statement.tokens, hkeyword, legible, hsemi]
    · simp [Statement.tree, Stmt.eraseLines, htree]
  | .ifElse test thenBlock elseBlock line, hw, hf, level, rest, ts, h => by
    simp only [Stmt.pieces, List.append_assoc, List.cons_append, List.nil_append] at h
    obtain ⟨keyword, _, rfl, hkeyword, h⟩ := h.indent.mark (by decide)
    obtain ⟨d, _, rfl, legible, htree, h⟩ :=
      (test.derived hw.2.1 hf.2.1 level _ _ h.space).raise test.tier_le
    obtain ⟨thenD, _, rfl, thenLegible, hthen, h⟩ :=
      h.space.block (Stmt.allDerived hw.2.2.1 hf.2.2.1 (level + 1))
    cases elseBlock with
    | nil =>
      refine ⟨.ifThen keyword d thenD, _, ?_, ?_, ?_, h.newline⟩
      · simp [Statement.tokens]
      · simp [Statement.tokens, hkeyword, legible, thenLegible]
      · simp [Statement.tree, Stmt.eraseLines, htree, hthen]
    | cons first tail =>
      simp only [List.isEmpty_cons, Bool.false_eq_true, if_false, List.append_assoc,
        List.cons_append, List.nil_append] at h
      obtain ⟨otherwise, _, rfl, hotherwise, h⟩ := h.space.mark (by decide)
      obtain ⟨elseD, ts', rfl, elseLegible, helse, h⟩ :=
        h.space.block (Stmt.allDerived hw.2.2.2 hf.2.2.2 (level + 1))
      refine ⟨.ifElse keyword d thenD otherwise elseD, ts', ?_, ?_, ?_, h.newline⟩
      · simp [Statement.tokens]
      · simp [Statement.tokens, hkeyword, legible, thenLegible, hotherwise, elseLegible]
      · simp [Statement.tree, Stmt.eraseLines, htree, hthen, helse]
  | .whileLoop test body line, hw, hf, level, rest, ts, h => by
    simp only [Stmt.pieces, List.append_assoc, List.cons_append, List.nil_append] at h
    obtain ⟨keyword, _, rfl, hkeyword, h⟩ := h.indent.mark (by decide)
    obtain ⟨d, _, rfl, legible, htree, h⟩ :=
      (test.derived hw.2.1 hf.2.1 level _ _ h.space).raise test.tier_le
    obtain ⟨bodyD, ts', rfl, bodyLegible, hbody, h⟩ :=
      h.space.block (Stmt.allDerived hw.2.2 hf.2.2 (level + 1))
    refine ⟨.whileLoop keyword d bodyD, ts', ?_, ?_, ?_, h.newline⟩
    · simp [Statement.tokens]
    · simp [Statement.tokens, hkeyword, legible, bodyLegible]
    · simp [Statement.tree, Stmt.eraseLines, htree, hbody]
  | .breakLoop line, _, _, level, rest, ts, h => by
    obtain ⟨keyword, _, rfl, hkeyword, h⟩ := h.indent.mark (by decide)
    obtain ⟨semi, ts', rfl, hsemi, h⟩ := h.mark (by decide)
    refine ⟨.breakLoop keyword semi, ts', rfl, ?_, rfl, h.newline⟩
    simp [Statement.tokens, hkeyword, hsemi]
  | .continueLoop line, _, _, level, rest, ts, h => by
    obtain ⟨keyword, _, rfl, hkeyword, h⟩ := h.indent.mark (by decide)
    obtain ⟨semi, ts', rfl, hsemi, h⟩ := h.mark (by decide)
    refine ⟨.continueLoop keyword semi, ts', rfl, ?_, rfl, h.newline⟩
    simp [Statement.tokens, hkeyword, hsemi]
  | .expr value, hw, hf, level, rest, ts, h => by
    simp only [Stmt.pieces, List.append_assoc, List.cons_append, List.nil_append] at h
    obtain ⟨d, _, rfl, legible, htree, h⟩ :=
      (value.derived hw.2 hf.2 level _ _ h.indent).raise value.tier_le
    obtain ⟨semi, ts', rfl, hsemi, h⟩ := h.mark (by decide)
    refine ⟨.expr d semi, ts', ?_, ?_, ?_, h.newline⟩
    · simp [Statement.tokens]
    · simp [Statement.tokens, legible, hsemi]
    · simp [Statement.tree, Stmt.eraseLines, htree]

lemma Stmt.allDerived : ∀ {body : List Stmt}, Stmt.AllEverywhere .wellFormed body →
    Stmt.AllEverywhere .floatsReadBack body → ∀ (level : Nat) (rest : List Piece)
    (ts : List Token), Spells (Stmt.blockPieces level body ++ rest) ts →
      Stmt.AllDerived body rest ts
  | [], _, _, level, rest, ts, h => ⟨.nil, ts, rfl, legible_nil, rfl, h⟩
  | first :: body, hw, hf, level, rest, ts, h => by
    rw [Stmt.blockPieces, List.append_assoc] at h
    obtain ⟨d, _, rfl, legible, htree, h⟩ := first.derived hw.1 hf.1 level _ _ h
    obtain ⟨d', ts', rfl, legible', htree', h⟩ := Stmt.allDerived hw.2 hf.2 level _ _ h
    refine ⟨.cons d d', ts', ?_, ?_, ?_, h⟩
    · rw [Statements.tokens, List.append_assoc]
    · simp [Statements.tokens, legible, legible']
    · rw [Statements.tree, Stmt.eraseAllLines, Stmt.eraseAllLines, htree, htree']

end

/-- All floats that can be written are read back. -/
lemma NodeCondition.wellFormed_implies_floatsReadBack :
    NodeCondition.wellFormed.Implies .floatsReadBack where
  onStmt _ _ := trivial
  onExpr e he := by
    cases e with
    | literal value =>
      cases value with
      | float value line => exact Decimal.ofText?_plain he
      | _ => trivial
    | _ => trivial

end BlockLang
