import BlockLang.Proofs.Grammar.Stream

/-!
# How phrases are read, step by step

What the functions of the parser do in front of the right tokens, one lemma for each way in which
they go on: an operator with the phrase to its right (`Parser.run_operators_cons`), the end of an
expression (`Parser.run_operators_done`), the forms of operands.  The lemmas take what the inner
functions read as hypotheses, so that they can be put together along a derivation.

Two things about the grammar are needed for that.  Which alternative applies shows in the first
token, so each kind of phrase has its list of beginnings (`Grammar.StartsIn`).  And the operators
of tier `n` are those of the precedence `5 - n` (`Grammar.mem_operatorsAt_iff`).
-/

namespace BlockLang

/-! ## Tiers and precedences -/

namespace Grammar

/-- The operators of a tier are those of one precedence. -/
lemma mem_operatorsAt_iff {op : BinOp} {n : Nat} :
    op ∈ operatorsAt n ↔ op.precedence + n = 5 := by
  match n with
  | 0 | 1 | 2 | 3 | 4 => cases op <;> decide
  | n + 5 =>
    have hpos : 0 < op.precedence := by cases op <;> decide
    simp only [operatorsAt, List.not_mem_nil, false_iff]
    omega

/-! ## How phrases begin -/

/-- The kinds of token that an operand without operators in front of it begins with. -/
def primaryStarts : List TokenKind :=
  [.integer, .float, .char, .kwTrue, .kwFalse, .name, .lparen, .lbrace]

/-- The kinds of token that an expression begins with. -/
def exprStarts : List TokenKind :=
  [.plus, .minus, .bang] ++ primaryStarts

/-- The kinds of token that a statement begins with. -/
def statementStarts : List TokenKind :=
  [.kwPrint, .kwVar, .kwConst, .kwIf, .kwWhile, .kwBreak, .kwContinue] ++ exprStarts

/-- Tokens of which the first one is of one of the given kinds. -/
def StartsIn (kinds : List TokenKind) (ts : List Token) : Prop :=
  ∃ token rest, ts = token :: rest ∧ token.kind ∈ kinds

lemma StartsIn.append {kinds : List TokenKind} {ts : List Token} (h : StartsIn kinds ts)
    (ts' : List Token) : StartsIn kinds (ts ++ ts') := by
  obtain ⟨token, rest, rfl, hkind⟩ := h
  exact ⟨token, rest ++ ts', rfl, hkind⟩

lemma StartsIn.mono {kinds kinds' : List TokenKind} {ts : List Token} (h : StartsIn kinds ts)
    (hsub : kinds ⊆ kinds') : StartsIn kinds' ts := by
  obtain ⟨token, rest, rfl, hkind⟩ := h
  exact ⟨token, rest, rfl, hsub hkind⟩

lemma StartsIn.length_pos {kinds : List TokenKind} {ts : List Token} (h : StartsIn kinds ts) :
    0 < ts.length := by
  obtain ⟨token, rest, rfl, _⟩ := h
  exact Nat.succ_pos _

lemma Block.startsIn (d : Block) : StartsIn [.lbrace] d.tokens := by
  obtain ⟨opening, body, closing⟩ := d
  exact ⟨_, _, rfl, by simp [opening.2]⟩

lemma Primary.startsIn (d : Primary) : StartsIn primaryStarts d.tokens := by
  cases d with
  | literal word =>
    have hsub : [.integer, .float, .char, .kwTrue, .kwFalse] ⊆ primaryStarts := by decide
    exact ⟨_, _, rfl, hsub word.2⟩
  | name word => exact ⟨_, _, rfl, by simp [word.2, primaryStarts]⟩
  | parens opening inner closing => exact ⟨_, _, rfl, by simp [opening.2, primaryStarts]⟩
  | block block => exact block.startsIn.mono (by decide)

lemma Factor.startsIn (d : Factor) : StartsIn exprStarts d.tokens := by
  cases d with
  | signed op sign operand =>
    refine ⟨_, _, rfl, ?_⟩
    rw [sign.2]
    cases op <;> decide
  | primary primary => exact primary.startsIn.mono (by decide)

lemma Tier.startsIn : ∀ {n : Nat} (d : Tier n), StartsIn exprStarts d.tokens
  | _, .factor f => f.startsIn
  | _, .tier first links => first.startsIn.append links.tokens

lemma Wrapped.startsIn (w : Wrapped (Word .name)) : StartsIn exprStarts (w.tokens (·.1)) := by
  cases w with
  | bare word => exact ⟨_, _, rfl, by simp [word.2, exprStarts, primaryStarts]⟩
  | parens opening inner closing =>
    exact ⟨_, _, rfl, by simp [opening.2, exprStarts, primaryStarts]⟩

lemma Statement.startsIn (d : Statement) : StartsIn statementStarts d.tokens := by
  cases d with
  | assign target sign value semi =>
    exact (target.startsIn.append _).mono (by decide)
  | expr value semi => exact (value.startsIn.append _).mono (by decide)
  | print keyword _ _ | varDef keyword _ _ _ _ _ | varDecl keyword _ _ _
  | constDef keyword _ _ _ _ _ | ifThen keyword _ _ | ifElse keyword _ _ _ _
  | whileLoop keyword _ _ | breakLoop keyword _ | continueLoop keyword _ =>
    exact ⟨_, _, rfl, by simp [keyword.2, statementStarts]⟩

end Grammar

namespace Parser

open Grammar

variable {q : Parser} {ts : List Token} {token : Token} {depth least : Nat} {e : Expr}

/-! ## What follows a phrase -/

/-- An operator on which the parser stands binds less tightly than `k`. -/
def BindsBelow (k : Nat) (q : Parser) : Prop :=
  ∀ op, BinOp.ofToken? q.current.kind = some op → op.precedence < k

lemma BindsBelow.mono {k k' : Nat} (h : q.BindsBelow k) (hle : k ≤ k') : q.BindsBelow k' :=
  fun op hop => Nat.lt_of_lt_of_le (h op hop) hle

/-- The parser does not stand on an operator. -/
def NoOperator (q : Parser) : Prop :=
  BinOp.ofToken? q.current.kind = none

lemma NoOperator.bindsBelow {k : Nat} (h : q.NoOperator) : q.BindsBelow k := by
  intro op hop
  rw [h] at hop
  cases hop

lemma noOperator_word {kind : TokenKind} (word : Word kind) (h : BinOp.ofToken? kind = none) :
    (before (word.1 :: ts) q).NoOperator := by
  rw [NoOperator, current_before_cons, word.2, h]

end Parser

namespace Grammar

open BlockLang.Parser

variable {q : Parser} {ts : List Token}

lemma StartsIn.noOperator {kinds : List TokenKind} (h : StartsIn kinds ts)
    (hkinds : ∀ kind ∈ kinds, BinOp.ofToken? kind = none) : (before ts q).NoOperator := by
  obtain ⟨token, rest, rfl, hkind⟩ := h
  exact hkinds _ hkind

lemma StartsIn.current_ne {kinds : List TokenKind} {kind : TokenKind} (h : StartsIn kinds ts)
    (hkind : kind ∉ kinds) : (before ts q).current.kind ≠ kind := by
  obtain ⟨token, rest, rfl, hmem⟩ := h
  rintro rfl
  exact hkind hmem

end Grammar

namespace Parser

open Grammar

variable {q : Parser} {ts : List Token} {token : Token} {depth least : Nat} {e : Expr}

/-- Where no operator can be added an expression is complete. -/
lemma run_operators_done (h : q.BindsBelow least) :
    (operators (depth + 1) least e).run q = (.done e, q) := by
  rw [operators, Attempt.run_bind, run_kind]
  dsimp only
  cases hop : BinOp.ofToken? q.current.kind with
  | none => rfl
  | some op =>
    dsimp only
    rw [if_pos (h op hop)]
    rfl

/-- An operator that binds tightly enough is read with the phrase to its right. -/
lemma run_operators_cons {op : BinOp} {sign : Word op.token} {right : Expr} {q' : Parser}
    (hop : least ≤ op.precedence)
    (hright : (expression depth (op.precedence + 1)).run (before ts q) = (.done right, q')) :
    (operators (depth + 1) least e).run (before (sign.1 :: ts) q) =
      (operators depth least (.binary op e right sign.1.line)).run q' := by
  have hinner : sign.1.kind ≠ .endOfInput := by
    rw [sign.2]
    cases op <;> decide
  rw [operators, Attempt.run_bind, run_kind]
  dsimp only
  rw [current_before_cons, sign.2, BinOp.ofToken?_token]
  dsimp only
  rw [if_neg (Nat.not_lt.mpr hop), Attempt.run_bind, run_advance_before hinner]
  dsimp only
  rw [Attempt.run_bind, hright]

/-! ## Operands -/

lemma run_unary_signed {op : UnaryOp} {sign : Word op.token} {operand : Expr} {q' : Parser}
    (hoperand : (unary depth).run (before ts q) = (.done operand, q')) :
    (unary (depth + 1)).run (before (sign.1 :: ts) q) =
      (.done (.unary op operand sign.1.line), q') := by
  have hinner : sign.1.kind ≠ .endOfInput := by
    rw [sign.2]
    cases op <;> decide
  rw [unary, Attempt.run_bind, run_kind]
  dsimp only
  rw [current_before_cons, sign.2, UnaryOp.ofToken?_token]
  dsimp only
  rw [Attempt.run_bind, run_advance_before hinner]
  dsimp only
  rw [Attempt.run_bind, hoperand]
  rfl

lemma run_unary_primary (h : StartsIn primaryStarts ts) :
    (unary (depth + 1)).run (before ts q) = (primary depth).run (before ts q) := by
  obtain ⟨token, rest, rfl, hkind⟩ := h
  have hnone : ∀ kind ∈ primaryStarts, UnaryOp.ofToken? kind = none := by decide
  rw [unary, Attempt.run_bind, run_kind]
  dsimp only
  rw [current_before_cons, hnone _ hkind]

lemma run_primary_literal {word : LiteralWord} (h : word.1.HasValue) :
    (primary (depth + 1)).run (before (word.1 :: ts) q) =
      (.done (.literal (literalValue word)), before ts q) := by
  rw [primary, Attempt.run_bind, run_kind, ← run_literal_before h]
  have hkind := word.2
  simp only [List.mem_cons, List.not_mem_nil, or_false] at hkind
  rw [current_before_cons]
  obtain hkind | hkind | hkind | hkind | hkind := hkind <;> rw [hkind]

lemma run_primary_name {word : Word .name} :
    (primary (depth + 1)).run (before (word.1 :: ts) q) =
      (.done (.name (ident word)), before ts q) := by
  rw [primary, Attempt.run_bind, run_kind, current_before_cons, word.2]
  dsimp only
  rw [Attempt.run_bind, run_identifier_before]
  rfl

lemma run_primary_parens {opening : Word .lparen} {closing : Word .rparen}
    (hinner : (expression depth 0).run (before ts (before [closing.1] q)) =
      (.done e, before [closing.1] q)) :
    (primary (depth + 1)).run (before (opening.1 :: (ts ++ [closing.1])) q) = (.done e, q) := by
  have hopening : opening.1.kind ≠ .endOfInput := by simp [opening.2]
  rw [primary, Attempt.run_bind, run_kind, current_before_cons, opening.2]
  dsimp only
  rw [Attempt.run_bind, run_advance_before hopening, before_append]
  dsimp only
  rw [Attempt.run_bind, hinner]
  dsimp only
  rw [Attempt.run_bind, run_expect_before closing (by decide)]
  rfl

lemma run_primary_block {body : List Stmt} {q' : Parser} (h : StartsIn [.lbrace] ts)
    (hblock : (block depth).run (before ts q) = (.done body, q')) :
    (primary (depth + 1)).run (before ts q) =
      (.done (.block body (before ts q).current.line), q') := by
  obtain ⟨token, rest, rfl, hkind⟩ := h
  rw [List.mem_singleton] at hkind
  rw [primary, Attempt.run_bind, run_kind, current_before_cons, hkind]
  dsimp only
  rw [Attempt.run_bind, Attempt.run_get]
  dsimp only
  rw [Attempt.run_bind, hblock]
  rfl

/-- An operand on its own is ready for operators. -/
lemma run_expression_of_unary {q' : Parser}
    (h : (unary depth).run (before ts q) = (.done e, q')) :
    (expression (depth + 1) least).run (before ts q) = (operators depth least e).run q' := by
  rw [expression, Attempt.run_bind, h]

/-! ## Statements without a keyword -/

/-- An expression as a statement, or an assignment. -/
def plainStatement (depth : Nat) : Reading Stmt := do
  let first ← expression depth 0
  if (← kind) = .assign then
    match first with
    | .name target =>
      let sign ← advance
      let value ← expression depth 0
      let _ ← expect .semi
      return .assign target value sign.line
    | _ => unexpected TokenKind.semi.describe
  else
    let _ ← expect .semi
    return .expr first

lemma run_statement_plain (h : StartsIn exprStarts ts) :
    (statement (depth + 1)).run (before ts q) = (plainStatement depth).run (before ts q) := by
  obtain ⟨token, rest, rfl, hkind⟩ := h
  rw [statement, Attempt.run_bind, run_kind]
  simp only [exprStarts, primaryStarts, List.cons_append, List.nil_append, List.mem_cons,
    List.not_mem_nil, or_false] at hkind
  rw [current_before_cons]
  obtain hkind | hkind | hkind | hkind | hkind | hkind | hkind | hkind | hkind | hkind | hkind :=
    hkind <;> rw [hkind] <;> rfl

end Parser

end BlockLang
