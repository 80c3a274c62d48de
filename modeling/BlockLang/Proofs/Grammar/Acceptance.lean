import BlockLang.Proofs.Grammar.Reading
import BlockLang.Proofs.Program.Everywhere

/-!
# What the grammar derives is read

A parser in front of the text of a derivation reads the tree of the derivation and stops behind
the text, if its values can be read, its variables are declared and what follows cannot belong to
it.  There is one theorem for each nonterminal, all of them together by recursion over the
derivation (`Tier.read` and its companions).

The heart is `Tier.read`.  A phrase of tier `n` is what `Parser.expression` reads that accepts
operators from the precedence `6 - n` on.  The statement is about a parser that has not finished:
behind a phrase it is ready to go on with any operator that binds too loosely for the phrase
itself (`Parser.ReadsOperand`).  In this form the operators of a tier are read one after the other.

The depth that is asked for grows with the number of tokens, as `Parser.depth` does.
-/

namespace BlockLang

namespace Parser

open Grammar

variable {q : Parser} {ts : List Token} {depth least : Nat} {e : Expr}

/-- The parser reads the tokens as the expression `e` and is ready for operators behind them. -/
def ReadsOperand (depth least : Nat) (ts : List Token) (e : Expr) (q : Parser) : Prop :=
  ∃ rest, depth ≤ rest + ts.length ∧
    (expression depth least).run (before ts q) = (operators rest least e).run q

/-- Where no operator can be added an operand is an expression. -/
lemma ReadsOperand.done (h : ReadsOperand depth least ts e q) (hq : q.BindsBelow least)
    (hdepth : ts.length < depth) :
    (expression depth least).run (before ts q) = (.done e, q) := by
  obtain ⟨rest, hrest, hrun⟩ := h
  obtain ⟨rest, rfl⟩ : ∃ k, rest = k + 1 := ⟨rest - 1, by omega⟩
  rw [hrun, run_operators_done hq]

/-- An expression that no operator follows. -/
lemma run_expression_whole (h : q.BindsBelow 2 → ReadsOperand depth 0 ts e q)
    (hq : q.NoOperator) (hdepth : ts.length < depth) :
    (expression depth 0).run (before ts q) = (.done e, q) :=
  (h hq.bindsBelow).done hq.bindsBelow hdepth

/-- A word in parentheses is an operand, if the word itself is one. -/
lemma readsOperand_wrapped {α : Type} {text : α → Token} {value : α → Expr}
    (hstart : ∀ word, (text word).kind ∈ primaryStarts)
    (hword : ∀ word depth q, (text word).HasValue →
      (primary (depth + 1)).run (before [text word] q) = (.done (value word), q)) :
    ∀ (w : Wrapped α) (depth least : Nat) {q : Parser}, Legible (w.tokens text) →
      8 * (w.tokens text).length + 2 ≤ depth →
      ReadsOperand depth least (w.tokens text) (value w.word) q
  | .bare word, depth, least, q, legible, hdepth => by
    rw [Wrapped.tokens, List.length_singleton] at hdepth
    obtain ⟨k, rfl⟩ : ∃ k, depth = k + 3 := ⟨depth - 3, by omega⟩
    refine ⟨k + 2, by simp [Wrapped.tokens], run_expression_of_unary ?_⟩
    rw [Wrapped.tokens, run_unary_primary ⟨_, _, rfl, hstart word⟩]
    exact hword word k q (legible _ (List.mem_singleton_self _))
  | .parens opening inner closing, depth, least, q, legible, hdepth => by
    simp only [Wrapped.tokens, legible_cons, legible_append] at legible
    simp only [Wrapped.tokens, List.length_cons, List.length_append, List.length_nil] at hdepth
    obtain ⟨k, rfl⟩ : ∃ k, depth = k + 3 := ⟨depth - 3, by omega⟩
    have hinner := readsOperand_wrapped hstart hword inner k 0 (q := before [closing.1] q)
      legible.2.1 (by omega)
    have hclosing : (before [closing.1] q).NoOperator := noOperator_word closing rfl
    refine ⟨k + 2, ?_, run_expression_of_unary ?_⟩
    · simp only [Wrapped.tokens, List.length_cons, List.length_append]
      omega
    rw [Wrapped.tokens, run_unary_primary ⟨_, _, rfl, by simp [opening.2, primaryStarts]⟩]
    exact run_primary_parens (hinner.done hclosing.bindsBelow (by omega))

/-- A literal in parentheses. -/
lemma readsOperand_literal (w : Wrapped LiteralWord) (depth least : Nat)
    (legible : Legible (w.tokens (·.1))) (hdepth : 8 * (w.tokens (·.1)).length + 2 ≤ depth) :
    ReadsOperand depth least (w.tokens (·.1)) (.literal (literalValue w.word)) q := by
  have hsub : [.integer, .float, .char, .kwTrue, .kwFalse] ⊆ primaryStarts := by decide
  exact readsOperand_wrapped (fun word => hsub word.2) (fun word depth q => run_primary_literal) w
    depth least legible hdepth

/-- A name in parentheses. -/
lemma readsOperand_name (w : Wrapped (Word .name)) (depth least : Nat)
    (legible : Legible (w.tokens (·.1))) (hdepth : 8 * (w.tokens (·.1)).length + 2 ≤ depth) :
    ReadsOperand depth least (w.tokens (·.1)) (.name (ident w.word)) q := by
  have hstart : ∀ word : Word .name, word.1.kind ∈ primaryStarts := fun word => by
    simp [word.2, primaryStarts]
  exact readsOperand_wrapped hstart (fun word depth q _ => run_primary_name) w depth least
    legible hdepth

end Parser

namespace Grammar

open BlockLang.Parser

variable {depth least : Nat} {q : Parser}

lemma Links.everywhere_left {P : NodeCondition} : ∀ {n : Nat} (d : Links n) {left : Expr},
    (d.tree left).Everywhere P → left.Everywhere P
  | _, .nil, _, h => h
  | _, .cons _ _ _ _ rest, _, h => (rest.everywhere_left h).2.1

/-- Behind the operators of a tier comes what comes behind the tier. -/
lemma Links.bindsBelow {n : Nat} (d : Links n) (h : q.BindsBelow (6 - n)) :
    (before d.tokens q).BindsBelow (6 - n) := by
  cases d with
  | nil => exact h
  | cons op atTier sign right rest =>
    intro op' hop'
    rw [Links.tokens, current_before_cons, sign.2, BinOp.ofToken?_token, Option.some.injEq] at hop'
    have hprecedence := mem_operatorsAt_iff.mp atTier
    rw [← hop']
    omega

mutual

theorem Tier.read : ∀ {n : Nat} (d : Tier n) (depth least : Nat) {q : Parser},
    least + n ≤ 6 → q.BindsBelow (7 - n) → Legible d.tokens → d.tree.Everywhere .declared →
    8 * d.tokens.length + 2 ≤ depth → ReadsOperand depth least d.tokens d.tree q
  | _, .factor f, depth, least, q, _, _, legible, declared, hdepth => by
    have hlength := f.startsIn.length_pos
    rw [Tier.tokens] at hdepth legible ⊢
    rw [Tier.tree] at declared ⊢
    obtain ⟨k, rfl⟩ : ∃ k, depth = k + 1 := ⟨depth - 1, by omega⟩
    refine ⟨k, by omega, run_expression_of_unary ?_⟩
    exact f.read k legible declared (by omega)
  | _, .tier (n := n) first links, depth, least, q, hleast, hq, legible, declared, hdepth => by
    have hlength := first.startsIn.length_pos
    rw [Tier.tokens, legible_append] at legible
    rw [Tier.tokens, List.length_append] at hdepth
    rw [Tier.tree] at declared
    have hlinks : q.BindsBelow (6 - n) := hq.mono (by omega)
    obtain ⟨k, hk, hfirst⟩ := first.read depth least (q := before links.tokens q)
      (by omega) ((links.bindsBelow hlinks).mono (by omega)) legible.1
      (links.everywhere_left declared) (by omega)
    obtain ⟨k', hk', hrest⟩ := links.read k least (by omega) hlinks legible.2 declared
      (by omega)
    refine ⟨k', ?_, ?_⟩
    · rw [Tier.tokens, List.length_append]
      omega
    · rw [Tier.tokens, before_append, hfirst, hrest, Tier.tree]

theorem Links.read : ∀ {n : Nat} (d : Links n) (depth least : Nat) {q : Parser} {left : Expr},
    least + n ≤ 5 → q.BindsBelow (6 - n) → Legible d.tokens →
    (d.tree left).Everywhere .declared → 8 * d.tokens.length + 2 ≤ depth →
    ∃ rest, depth ≤ rest + d.tokens.length ∧
      (operators depth least left).run (before d.tokens q) =
        (operators rest least (d.tree left)).run q
  | _, .nil, depth, _, _, _, _, _, _, _, _ => ⟨depth, Nat.le_add_right _ _, rfl⟩
  | n, .cons op atTier sign right rest, depth, least, q, left, hleast, hq, legible, declared,
      hdepth => by
    have hprecedence := mem_operatorsAt_iff.mp atTier
    simp only [Links.tokens, legible_cons, legible_append] at legible
    simp only [Links.tokens, List.length_cons, List.length_append] at hdepth
    rw [Links.tree] at declared
    obtain ⟨k, rfl⟩ : ∃ k, depth = k + 1 := ⟨depth - 1, by omega⟩
    have hfollow := rest.bindsBelow hq
    have hright := right.read k (op.precedence + 1) (q := before rest.tokens q)
      (by omega) (hfollow.mono (by omega)) legible.2.1
      (rest.everywhere_left declared).2.2 (by omega)
    obtain ⟨k', hk', hrest⟩ := rest.read k least (by omega) hq legible.2.2 declared
      (by omega)
    refine ⟨k', ?_, ?_⟩
    · simp only [Links.tokens, List.length_cons, List.length_append]
      omega
    · have hwhole := hright.done (hfollow.mono (by omega)) (by omega)
      rw [Links.tokens, Links.tree, ← hrest]
      refine run_operators_cons (by omega) ?_
      rw [before_append, hwhole]

theorem Factor.read : ∀ (d : Factor) (depth : Nat) {q : Parser}, Legible d.tokens →
    d.tree.Everywhere .declared → 8 * d.tokens.length + 1 ≤ depth →
    (unary depth).run (before d.tokens q) = (.done d.tree, q)
  | .signed op sign operand, depth, q, legible, declared, hdepth => by
    simp only [Factor.tokens, legible_cons] at legible
    simp only [Factor.tokens, List.length_cons] at hdepth
    obtain ⟨k, rfl⟩ : ∃ k, depth = k + 1 := ⟨depth - 1, by omega⟩
    rw [Factor.tokens, Factor.tree]
    exact run_unary_signed (operand.read k legible.2 declared.2 (by omega))
  | .primary p, depth, q, legible, declared, hdepth => by
    rw [Factor.tokens] at legible hdepth ⊢
    rw [Factor.tree] at declared ⊢
    obtain ⟨k, rfl⟩ : ∃ k, depth = k + 1 := ⟨depth - 1, by omega⟩
    rw [run_unary_primary p.startsIn]
    exact p.read k legible declared (by omega)

theorem Primary.read : ∀ (d : Primary) (depth : Nat) {q : Parser}, Legible d.tokens →
    d.tree.Everywhere .declared → 8 * d.tokens.length ≤ depth →
    (primary depth).run (before d.tokens q) = (.done d.tree, q)
  | .literal word, depth, q, legible, _, hdepth => by
    simp only [Primary.tokens, List.length_singleton] at hdepth
    obtain ⟨k, rfl⟩ : ∃ k, depth = k + 1 := ⟨depth - 1, by omega⟩
    exact run_primary_literal (legible _ (List.mem_singleton_self _))
  | .name word, depth, q, _, _, hdepth => by
    simp only [Primary.tokens, List.length_singleton] at hdepth
    obtain ⟨k, rfl⟩ : ∃ k, depth = k + 1 := ⟨depth - 1, by omega⟩
    exact run_primary_name
  | .parens opening inner closing, depth, q, legible, declared, hdepth => by
    simp only [Primary.tokens, legible_cons, legible_append] at legible
    simp only [Primary.tokens, List.length_cons, List.length_append] at hdepth
    rw [Primary.tree] at declared
    obtain ⟨k, rfl⟩ : ∃ k, depth = k + 1 := ⟨depth - 1, by omega⟩
    refine run_primary_parens (run_expression_whole (fun hq => ?_) (noOperator_word closing rfl)
      (by omega))
    exact inner.read k 0 (by omega) hq legible.2.1 declared (by omega)
  | .block block, depth, q, legible, declared, hdepth => by
    rw [Primary.tokens] at legible hdepth ⊢
    have hlength := block.startsIn.length_pos
    obtain ⟨k, rfl⟩ : ∃ k, depth = k + 1 := ⟨depth - 1, by omega⟩
    rw [run_primary_block block.startsIn (block.read k legible declared.2 (by omega))]
    obtain ⟨opening, body, closing⟩ := block
    rfl

theorem Block.read : ∀ (d : Block) (depth : Nat) {q : Parser}, Legible d.tokens →
    Stmt.AllEverywhere .declared d.body → 8 * d.tokens.length ≤ depth + 1 →
    (block depth).run (before d.tokens q) = (.done d.body, q)
  | .braces opening body closing, depth, q, legible, declared, hdepth => by
    simp only [Block.tokens, legible_cons, legible_append] at legible
    simp only [Block.tokens, List.length_cons, List.length_append] at hdepth
    obtain ⟨k, rfl⟩ : ∃ k, depth = k + 1 := ⟨depth - 1, by omega⟩
    have hbody := body.read k true (q := before [closing.1] q) (.inr ⟨rfl, closing.2⟩)
      legible.2.1 declared (by omega)
    simp only [Block.tokens, Block.body, block, Attempt.run_bind,
      run_expect_before opening (by decide), before_append, hbody,
      run_expect_before closing (by decide), Attempt.run_pure, before_nil]

theorem Statements.read : ∀ (d : Statements) (depth : Nat) (inBlock : Bool) {q : Parser},
    q.current.kind = .endOfInput ∨ inBlock = true ∧ q.current.kind = .rbrace → Legible d.tokens →
    Stmt.AllEverywhere .declared d.tree → 8 * d.tokens.length + 1 ≤ depth →
    (statements depth inBlock).run (before d.tokens q) = (.done d.tree, q)
  | .nil, depth, inBlock, q, hend, _, _, hdepth => by
    obtain ⟨k, rfl⟩ : ∃ k, depth = k + 1 := ⟨depth - 1, by omega⟩
    rw [statements, Attempt.run_bind, run_kind]
    exact congrArg (Attempt.run · q) (if_pos hend)
  | .cons first rest, depth, inBlock, q, hend, legible, declared, hdepth => by
    have hlength := first.startsIn.length_pos
    simp only [Statements.tokens, legible_append] at legible
    simp only [Statements.tokens, List.length_append] at hdepth
    obtain ⟨k, rfl⟩ : ∃ k, depth = k + 1 := ⟨depth - 1, by omega⟩
    have hbehind : (before rest.tokens q).current.kind ≠ .kwElse := by
      cases rest with
      | nil => obtain hend | ⟨_, hend⟩ := hend <;> simp [Statements.tokens, hend]
      | cons second rest =>
        exact (second.startsIn.append _).current_ne (by decide)
    have hfirst := first.read k hbehind legible.1 declared.1 (by omega)
    have hrest := rest.read k inBlock hend legible.2 declared.2 (by omega)
    have hgo : ¬((before (first.tokens ++ rest.tokens) q).current.kind = .endOfInput ∨
        inBlock = true ∧ (before (first.tokens ++ rest.tokens) q).current.kind = .rbrace) := by
      have hstart := first.startsIn.append rest.tokens
      rintro (hkind | ⟨_, hkind⟩)
      · exact hstart.current_ne (by decide) hkind
      · exact hstart.current_ne (by decide) hkind
    rw [statements, Attempt.run_bind, run_kind]
    dsimp only
    rw [Statements.tokens, if_neg hgo, before_append]
    simp only [Attempt.run_bind, hfirst, hrest, Attempt.run_pure, Statements.tree]

theorem Statement.read : ∀ (d : Statement) (depth : Nat) {q : Parser},
    q.current.kind ≠ .kwElse → Legible d.tokens → d.tree.Everywhere .declared →
    8 * d.tokens.length ≤ depth →
    (statement depth).run (before d.tokens q) = (.done d.tree, q)
  | .print keyword value semi, depth, q, _, legible, declared, hdepth => by
    simp only [Statement.tokens, legible_cons, legible_append] at legible
    simp only [Statement.tokens, List.length_cons, List.length_append] at hdepth
    obtain ⟨k, rfl⟩ : ∃ k, depth = k + 1 := ⟨depth - 1, by omega⟩
    have hvalue := run_expression_whole (q := before [semi.1] q)
      (fun hq => value.read k 0 (by omega) hq legible.2.1 declared.2 (by omega))
      (noOperator_word semi rfl) (by omega)
    simp only [statement, Attempt.run_bind, run_kind, Statement.tokens, current_before_cons,
      keyword.2, run_advance_word keyword (by decide), before_append, hvalue,
      run_expect_before semi (by decide), Attempt.run_pure, before_nil, Statement.tree]
  | .varDef keyword name ty sign value semi, depth, q, _, legible, declared, hdepth => by
    simp only [Statement.tokens, legible_cons, legible_append] at legible
    simp only [Statement.tokens, List.length_cons, List.length_append] at hdepth
    obtain ⟨k, rfl⟩ : ∃ k, depth = k + 1 := ⟨depth - 1, by omega⟩
    have hvalue := run_expression_whole (q := before [semi.1] q)
      (fun hq => value.read k 0 (by omega) hq legible.2.2.2.2.1 declared.2 (by omega))
      (noOperator_word semi rfl) (by omega)
    have hty : (before (sign.1 :: (value.tokens ++ [semi.1])) q).current.kind ≠ .name := by
      simp [sign.2]
    simp only [statement, Attempt.run_bind, run_kind, Statement.tokens, current_before_cons,
      keyword.2, run_advance_word keyword (by decide), run_identifier_before, before_append,
      run_identifier?_before hty, sign.2, if_pos, run_advance_word sign (by decide), hvalue,
      run_expect_before semi (by decide), Attempt.run_pure, before_nil, Statement.tree]
  | .varDecl keyword name (some ty) semi, depth, q, _, _, _, hdepth => by
    simp only [Statement.tokens, List.length_cons] at hdepth
    obtain ⟨k, rfl⟩ : ∃ k, depth = k + 1 := ⟨depth - 1, by omega⟩
    have hty : (before [semi.1] q).current.kind ≠ .name := by simp [semi.2]
    have hassign : TokenKind.semi ≠ .assign := by decide
    simp only [statement, Attempt.run_bind, run_kind, Statement.tokens, current_before_cons,
      keyword.2, run_advance_word keyword (by decide), run_identifier_before, before_append,
      run_identifier?_before hty, semi.2, if_neg hassign, Option.map_some, Option.isNone_some,
      Bool.false_eq_true, if_false, run_expect_before semi (by decide), Attempt.run_pure,
      before_nil, Statement.tree]
  | .constDef keyword name ty sign value semi, depth, q, _, legible, _, hdepth => by
    simp only [Statement.tokens, legible_cons, legible_append] at legible
    simp only [Statement.tokens, List.length_cons, List.length_append] at hdepth
    obtain ⟨k, rfl⟩ : ∃ k, depth = k + 1 := ⟨depth - 1, by omega⟩
    have hvalue := run_expression_whole (q := before [semi.1] q)
      (fun _ => readsOperand_literal value k 0 legible.2.2.2.2.1 (by omega))
      (noOperator_word semi rfl) (by omega)
    have hty : (before (sign.1 :: (value.tokens (·.1) ++ [semi.1])) q).current.kind ≠ .name := by
      simp [sign.2]
    simp only [statement, Attempt.run_bind, run_kind, Statement.tokens, current_before_cons,
      keyword.2, run_advance_word keyword (by decide), run_identifier_before, before_append,
      run_identifier?_before hty, run_expect_before sign (by decide), hvalue, Expr.isLiteral,
      if_true, run_expect_before semi (by decide), Attempt.run_pure, before_nil, Statement.tree]
  | .assign target sign value semi, depth, q, _, legible, declared, hdepth => by
    simp only [Statement.tokens, legible_cons, legible_append] at legible
    simp only [Statement.tokens, List.length_cons, List.length_append] at hdepth
    obtain ⟨k, rfl⟩ : ∃ k, depth = k + 1 := ⟨depth - 1, by omega⟩
    have htarget := run_expression_whole (q := before (sign.1 :: (value.tokens ++ [semi.1])) q)
      (fun _ => readsOperand_name target k 0 legible.1 (by omega))
      (noOperator_word sign rfl) (by omega)
    have hvalue := run_expression_whole (q := before [semi.1] q)
      (fun hq => value.read k 0 (by omega) hq legible.2.2.1 declared.2 (by omega))
      (noOperator_word semi rfl) (by omega)
    rw [Statement.tokens, run_statement_plain (target.startsIn.append _), plainStatement]
    simp only [Attempt.run_bind, run_kind, before_append, htarget, current_before_cons, sign.2,
      if_pos, run_advance_word sign (by decide), hvalue, run_expect_before semi (by decide),
      Attempt.run_pure, before_nil, Statement.tree]
  | .ifThen keyword test thenBlock, depth, q, hq, legible, declared, hdepth => by
    simp only [Statement.tokens, legible_cons, legible_append] at legible
    simp only [Statement.tokens, List.length_cons, List.length_append] at hdepth
    obtain ⟨k, rfl⟩ : ∃ k, depth = k + 1 := ⟨depth - 1, by omega⟩
    have htest := run_expression_whole
      (fun hq => test.read k 0 (by omega) hq legible.2.1 declared.2.1 (by omega))
      (thenBlock.startsIn.noOperator (q := q) (by decide)) (by omega)
    have hthen := thenBlock.read k (q := q) legible.2.2 declared.2.2.1 (by omega)
    simp only [statement, Attempt.run_bind, run_kind, Statement.tokens, current_before_cons,
      keyword.2, run_advance_word keyword (by decide), before_append, htest, hthen, if_neg hq,
      Attempt.run_pure, Statement.tree]
  | .ifElse keyword test thenBlock otherwise elseBlock, depth, q, _, legible, declared,
      hdepth => by
    simp only [Statement.tokens, legible_cons, legible_append] at legible
    simp only [Statement.tokens, List.length_cons, List.length_append] at hdepth
    obtain ⟨k, rfl⟩ : ∃ k, depth = k + 1 := ⟨depth - 1, by omega⟩
    have htest := run_expression_whole
      (fun hq => test.read k 0 (by omega) hq legible.2.1 declared.2.1 (by omega))
      (thenBlock.startsIn.noOperator (q := before (otherwise.1 :: elseBlock.tokens) q)
        (by decide)) (by omega)
    have hthen := thenBlock.read k (q := before (otherwise.1 :: elseBlock.tokens) q)
      legible.2.2.1 declared.2.2.1 (by omega)
    have helse := elseBlock.read k (q := q) legible.2.2.2.2 declared.2.2.2 (by omega)
    simp only [statement, Attempt.run_bind, run_kind, Statement.tokens, current_before_cons,
      keyword.2, run_advance_word keyword (by decide), before_append, htest, hthen, otherwise.2,
      if_pos, run_advance_word otherwise (by decide), helse, Attempt.run_pure, Statement.tree]
  | .whileLoop keyword test body, depth, q, _, legible, declared, hdepth => by
    simp only [Statement.tokens, legible_cons, legible_append] at legible
    simp only [Statement.tokens, List.length_cons, List.length_append] at hdepth
    obtain ⟨k, rfl⟩ : ∃ k, depth = k + 1 := ⟨depth - 1, by omega⟩
    have htest := run_expression_whole
      (fun hq => test.read k 0 (by omega) hq legible.2.1 declared.2.1 (by omega))
      (body.startsIn.noOperator (q := q) (by decide)) (by omega)
    have hbody := body.read k (q := q) legible.2.2 declared.2.2 (by omega)
    simp only [statement, Attempt.run_bind, run_kind, Statement.tokens, current_before_cons,
      keyword.2, run_advance_word keyword (by decide), before_append, htest, hbody,
      Attempt.run_pure, Statement.tree]
  | .breakLoop keyword semi, depth, q, _, _, _, hdepth => by
    simp only [Statement.tokens, List.length_cons] at hdepth
    obtain ⟨k, rfl⟩ : ∃ k, depth = k + 1 := ⟨depth - 1, by omega⟩
    simp only [statement, Attempt.run_bind, run_kind, Statement.tokens, current_before_cons,
      keyword.2, run_advance_word keyword (by decide), run_expect_before semi (by decide),
      Attempt.run_pure, before_nil, Statement.tree]
  | .continueLoop keyword semi, depth, q, _, _, _, hdepth => by
    simp only [Statement.tokens, List.length_cons] at hdepth
    obtain ⟨k, rfl⟩ : ∃ k, depth = k + 1 := ⟨depth - 1, by omega⟩
    simp only [statement, Attempt.run_bind, run_kind, Statement.tokens, current_before_cons,
      keyword.2, run_advance_word keyword (by decide), run_expect_before semi (by decide),
      Attempt.run_pure, before_nil, Statement.tree]
  | .expr value semi, depth, q, _, legible, declared, hdepth => by
    simp only [Statement.tokens, legible_cons, legible_append] at legible
    simp only [Statement.tokens, List.length_cons, List.length_append] at hdepth
    obtain ⟨k, rfl⟩ : ∃ k, depth = k + 1 := ⟨depth - 1, by omega⟩
    have hvalue := run_expression_whole (q := before [semi.1] q)
      (fun hq => value.read k 0 (by omega) hq legible.1 declared.2 (by omega))
      (noOperator_word semi rfl) (by omega)
    have hassign : TokenKind.semi ≠ .assign := by decide
    rw [Statement.tokens, run_statement_plain (value.startsIn.append _), plainStatement]
    simp only [Attempt.run_bind, run_kind, before_append, hvalue, current_before_cons, semi.2,
      if_neg hassign, run_expect_before semi (by decide), Attempt.run_pure, before_nil,
      Statement.tree]

end

end Grammar

end BlockLang
