import BlockLang.Proofs.Grammar.Reading
import BlockLang.Proofs.Program.Everywhere

/-!
# What is read is derived

If a function of the parser is done, the tokens that it has passed are the text of a derivation,
and what it has read is the tree of that derivation.  `Parser.Recovers` says so for all functions
at one depth, and `Parser.recovers` proves it by induction on the depth.

The derivation of an expression is built while its operators are read.  What stands to the left of
an operator is a phrase of some tier `k`, and no operator follows it that would have belonged to
this phrase (`Parser.BindsBelow`).  So it can be raised to the tier of the next operator
(`Tier.raise`) and linked there with the phrase to the right (`Tier.link`).
-/

namespace BlockLang

namespace Grammar

variable {n : Nat}

/-! ## Building phrases -/

/-- A phrase as a phrase of a higher tier. -/
def Tier.raise (d : Tier n) : (m : Nat) → Tier (n + m)
  | 0 => d
  | m + 1 => .tier (d.raise m) .nil

@[simp] lemma Tier.tokens_raise (d : Tier n) (m : Nat) : (d.raise m).tokens = d.tokens := by
  induction m with
  | zero => rfl
  | succ m ih => rw [raise, Tier.tokens, ih, Links.tokens, List.append_nil]

@[simp] lemma Tier.tree_raise (d : Tier n) (m : Nat) : (d.raise m).tree = d.tree := by
  induction m with
  | zero => rfl
  | succ m ih => rw [raise, Tier.tree, Links.tree, ih]

lemma Tier.exists_raise {k : Nat} (d : Tier k) (h : k ≤ n) :
    ∃ d' : Tier n, d'.tokens = d.tokens ∧ d'.tree = d.tree := by
  obtain ⟨m, rfl⟩ := Nat.exists_eq_add_of_le h
  exact ⟨d.raise m, d.tokens_raise m, d.tree_raise m⟩

/-- One more operator behind others, with the phrase to its right. -/
def Links.snoc (op : BinOp) (atTier : op ∈ operatorsAt n) (sign : Word op.token)
    (right : Tier n) : Links n → Links n
  | .nil => .cons op atTier sign right .nil
  | .cons op' atTier' sign' right' rest =>
    .cons op' atTier' sign' right' (rest.snoc op atTier sign right)

lemma Links.tokens_snoc {op : BinOp} (atTier : op ∈ operatorsAt n) (sign : Word op.token)
    (right : Tier n) :
    ∀ d : Links n, (d.snoc op atTier sign right).tokens = d.tokens ++ sign.1 :: right.tokens
  | .nil => by simp [snoc, Links.tokens]
  | .cons op' atTier' sign' right' rest => by
    simp [snoc, Links.tokens, rest.tokens_snoc atTier sign right]

lemma Links.tree_snoc {op : BinOp} (atTier : op ∈ operatorsAt n) (sign : Word op.token)
    (right : Tier n) : ∀ (d : Links n) (left : Expr),
    (d.snoc op atTier sign right).tree left = .binary op (d.tree left) right.tree sign.1.line
  | .nil, left => by simp [snoc, Links.tree]
  | .cons op' atTier' sign' right' rest, left => by
    simp [snoc, Links.tree, rest.tree_snoc atTier sign right]

/-- A phrase with one more operator of its tier and the phrase to its right. -/
def Tier.link (op : BinOp) (atTier : op ∈ operatorsAt n) (sign : Word op.token) (right : Tier n) :
    Tier (n + 1) → Tier (n + 1)
  | .tier first links => .tier first (links.snoc op atTier sign right)

lemma Tier.tokens_link {op : BinOp} (atTier : op ∈ operatorsAt n) (sign : Word op.token)
    (right : Tier n) (d : Tier (n + 1)) :
    (Tier.link op atTier sign right d).tokens = d.tokens ++ sign.1 :: right.tokens := by
  cases d with
  | tier first links =>
    rw [link, Tier.tokens, Tier.tokens, links.tokens_snoc, List.append_assoc]

lemma Tier.tree_link {op : BinOp} (atTier : op ∈ operatorsAt n) (sign : Word op.token)
    (right : Tier n) (d : Tier (n + 1)) :
    (Tier.link op atTier sign right d).tree = .binary op d.tree right.tree sign.1.line := by
  cases d with
  | tier first links => rw [link, Tier.tree, Tier.tree, links.tree_snoc]

/-! ## Words in parentheses -/

/-- Whether an expression is a literal or a name. -/
def IsWord : Expr → Prop
  | .literal _ | .name _ => True
  | _ => False

/-- What operators make of a phrase is no word. -/
lemma Links.not_isWord_tree : ∀ {n : Nat} (d : Links n) {op : BinOp} {left right : Expr}
    {line : Nat}, ¬ IsWord (d.tree (.binary op left right line))
  | _, .nil, _, _, _, _ => id
  | _, .cons _ _ _ _ rest, _, _, _, _ => rest.not_isWord_tree

/-- A phrase that stands for a word is that word in parentheses. -/
lemma Tier.exists_wrapped {α : Type} (text : α → Token) (value : α → Expr) {e : Expr}
    (he : IsWord e)
    (hliteral : ∀ word : LiteralWord, .literal (literalValue word) = e →
      ∃ a, text a = word.1 ∧ value a = e)
    (hname : ∀ word : Word .name, .name (ident word) = e → ∃ a, text a = word.1 ∧ value a = e) :
    ∀ {n : Nat} (d : Tier n), d.tree = e →
      ∃ w : Wrapped α, w.tokens text = d.tokens ∧ value w.word = e
  | _, .factor (.signed _ _ _), h => by
    subst h
    exact he.elim
  | _, .factor (.primary (.literal word)), h => by
    obtain ⟨a, htext, hvalue⟩ := hliteral word h
    exact ⟨.bare a, congrArg (fun token => [token]) htext, hvalue⟩
  | _, .factor (.primary (.name word)), h => by
    obtain ⟨a, htext, hvalue⟩ := hname word h
    exact ⟨.bare a, congrArg (fun token => [token]) htext, hvalue⟩
  | _, .factor (.primary (.parens opening inner closing)), h => by
    obtain ⟨w, htokens, hvalue⟩ := Tier.exists_wrapped text value he hliteral hname inner h
    refine ⟨.parens opening w closing, ?_, hvalue⟩
    rw [Wrapped.tokens, htokens]
    rfl
  | _, .factor (.primary (.block _)), h => by
    subst h
    exact he.elim
  | _, .tier first .nil, h => by
    obtain ⟨w, htokens, hvalue⟩ := Tier.exists_wrapped text value he hliteral hname first h
    refine ⟨w, ?_, hvalue⟩
    rw [htokens, Tier.tokens, Links.tokens, List.append_nil]
  | _, .tier first (.cons _ _ _ _ rest), h => by
    rw [Tier.tree, Links.tree] at h
    subst h
    exact absurd he rest.not_isWord_tree

/-- A phrase that stands for a name is the name in parentheses. -/
lemma Tier.exists_name (d : Tier n) {target : Ident} (h : d.tree = .name target) :
    ∃ w : Wrapped (Word .name), w.tokens (·.1) = d.tokens ∧ ident w.word = target := by
  obtain ⟨w, htokens, hvalue⟩ := Tier.exists_wrapped (fun word : Word .name => word.1)
    (fun word => .name (ident word)) (e := .name target) trivial
    (fun _ hliteral => nomatch hliteral) (fun word hname => ⟨word, rfl, hname⟩) d h
  exact ⟨w, htokens, Expr.name.inj hvalue⟩

/-- A phrase that stands for a literal is the literal in parentheses. -/
lemma Tier.exists_literal (d : Tier n) {value : Literal} (h : d.tree = .literal value) :
    ∃ w : Wrapped LiteralWord, w.tokens (·.1) = d.tokens ∧ literalValue w.word = value := by
  obtain ⟨w, htokens, hvalue⟩ := Tier.exists_wrapped (fun word : LiteralWord => word.1)
    (fun word => .literal (literalValue word)) (e := .literal value) trivial
    (fun word hliteral => ⟨word, rfl, hliteral⟩) (fun _ hname => nomatch hname) d h
  exact ⟨w, htokens, Expr.literal.inj hvalue⟩

end Grammar

namespace Parser

open Grammar

variable {p p' : Parser} {depth least : Nat} {e : Expr}

/-! ## What each function recovers -/

/-- An expression whose operators bind at least as tightly as `0` is one whose operators bind at
least as tightly as `1`, because all operators do. -/
lemma run_operators_zero : ∀ (depth : Nat) (left : Expr),
    operators depth 0 left = operators depth 1 left
  | 0, _ => rfl
  | depth + 1, left => by
    have hpos : ∀ op : BinOp, ¬ op.precedence < 1 := by
      intro op
      cases op <;> decide
    simp only [operators, run_operators_zero depth, hpos, Nat.not_lt_zero]

/-- The function of depth `depth` that read `x` has passed the text of a derivation of `x`. -/
structure Recovers (depth : Nat) : Prop where
  statements : ∀ {inBlock : Bool} {p p' : Parser} {body : List Stmt}, p.Ends →
    (statements depth inBlock).run p = (.done body, p') →
    (∃ d : Statements, d.tree = body ∧ Legible d.tokens ∧ p = before d.tokens p') ∧
      Stmt.AllEverywhere .declared body ∧
      (p'.current.kind = .endOfInput ∨ inBlock = true ∧ p'.current.kind = .rbrace)
  block : ∀ {p p' : Parser} {body : List Stmt}, p.Ends →
    (block depth).run p = (.done body, p') →
    (∃ d : Block, d.body = body ∧ d.line = p.current.line ∧ Legible d.tokens ∧
      p = before d.tokens p') ∧ Stmt.AllEverywhere .declared body
  statement : ∀ {p p' : Parser} {s : Stmt}, p.Ends → (statement depth).run p = (.done s, p') →
    (∃ d : Statement, d.tree = s ∧ Legible d.tokens ∧ p = before d.tokens p') ∧
      s.Everywhere .declared
  expression : ∀ {least n : Nat} {p p' : Parser} {e : Expr}, least + n = 6 → p.Ends →
    (expression depth least).run p = (.done e, p') →
    (∃ d : Tier n, d.tree = e ∧ Legible d.tokens ∧ p = before d.tokens p') ∧
      e.Everywhere .declared ∧ p'.BindsBelow least
  operators : ∀ {least n k : Nat} {p p' : Parser} {e : Expr} {left : Tier k}, least + n = 6 →
    k ≤ n → Legible left.tokens → left.tree.Everywhere .declared → p.BindsBelow (7 - k) →
    p.Ends → (operators depth least left.tree).run p = (.done e, p') →
    (∃ (d : Tier n) (ts : List Token), d.tree = e ∧ Legible d.tokens ∧
      d.tokens = left.tokens ++ ts ∧ p = before ts p') ∧
      e.Everywhere .declared ∧ p'.BindsBelow least
  unary : ∀ {p p' : Parser} {e : Expr}, p.Ends → (unary depth).run p = (.done e, p') →
    (∃ d : Factor, d.tree = e ∧ Legible d.tokens ∧ p = before d.tokens p') ∧
      e.Everywhere .declared
  primary : ∀ {p p' : Parser} {e : Expr}, p.Ends → (primary depth).run p = (.done e, p') →
    (∃ d : Primary, d.tree = e ∧ Legible d.tokens ∧ p = before d.tokens p') ∧
      e.Everywhere .declared

namespace Recovers

lemma zero : Recovers 0 where
  statements _ h := absurd h Attempt.run_stop_ne_done
  block _ h := absurd h Attempt.run_stop_ne_done
  statement _ h := absurd h Attempt.run_stop_ne_done
  expression _ _ h := absurd h Attempt.run_stop_ne_done
  operators _ _ _ _ _ _ h := absurd h Attempt.run_stop_ne_done
  unary _ h := absurd h Attempt.run_stop_ne_done
  primary _ h := absurd h Attempt.run_stop_ne_done

/-- An expression that may contain any operator. -/
lemma wholeExpression (ih : Recovers depth) (hp : p.Ends)
    (h : (Parser.expression depth 0).run p = (.done e, p')) :
    (∃ d : Tier 5, d.tree = e ∧ Legible d.tokens ∧ p = before d.tokens p') ∧
      e.Everywhere .declared := by
  have hsame : Parser.expression depth 0 = Parser.expression depth 1 := by
    cases depth with
    | zero => rfl
    | succ depth => simp only [Parser.expression, run_operators_zero]
  rw [hsame] at h
  obtain ⟨hd, declared, _⟩ := ih.expression (n := 5) rfl hp h
  exact ⟨hd, declared⟩

lemma succ_literal (hp : p.Ends)
    (hkind : p.current.kind ∈ [TokenKind.integer, .float, .char, .kwTrue, .kwFalse])
    (h : literal.run p = (.done e, p')) :
    (∃ d : Primary, d.tree = e ∧ Legible d.tokens ∧ p = before d.tokens p') ∧
      e.Everywhere .declared := by
  obtain ⟨word, rfl, hvalue, hbefore⟩ := before_of_literal hp hkind h
  exact ⟨⟨.literal word, rfl, by simpa [Primary.tokens] using hvalue, hbefore⟩, trivial⟩

lemma succ_primary (ih : Recovers depth) (hp : p.Ends)
    (h : (Parser.primary (depth + 1)).run p = (.done e, p')) :
    (∃ d : Primary, d.tree = e ∧ Legible d.tokens ∧ p = before d.tokens p') ∧
      e.Everywhere .declared := by
  rw [Parser.primary, Attempt.run_bind_eq_done] at h
  obtain ⟨_, _, hnext, h⟩ := h
  cases hnext
  split at h
  case h_6 hkind =>
    simp only [Attempt.run_bind_eq_done, Attempt.run_pure_eq_done] at h
    obtain ⟨_, _, hname, rfl, rfl⟩ := h
    obtain ⟨word, rfl, rfl⟩ := before_of_identifier hp hname
    refine ⟨⟨.name word, rfl, ?_, rfl⟩, trivial⟩
    simp [Primary.tokens, hasValue_word word (by decide)]
  case h_7 hkind =>
    simp only [Attempt.run_bind_eq_done, Attempt.run_pure_eq_done] at h
    obtain ⟨_, _, hopening, _, _, hinner, _, _, hclosing, rfl, rfl⟩ := h
    obtain ⟨opening, rfl, rfl⟩ := before_of_advance_word hp hkind (by decide) hopening
    obtain ⟨⟨inner, rfl, legible, rfl⟩, declared⟩ := ih.wholeExpression hp.behind hinner
    obtain ⟨closing, rfl, rfl⟩ := before_of_expect hp.behind.behind (by decide) hclosing
    refine ⟨⟨.parens opening inner closing, rfl, ?_, ?_⟩, declared⟩
    · simp [Primary.tokens, legible, hasValue_word opening (by decide),
        hasValue_word closing (by decide)]
    · simp only [Primary.tokens, ← before_append, List.cons_append, List.nil_append]
  case h_8 hkind =>
    simp only [Attempt.run_bind_eq_done, Attempt.run_pure_eq_done] at h
    obtain ⟨start, _, hstart, body, _, hblock, rfl, rfl⟩ := h
    cases hstart
    obtain ⟨⟨d, rfl, hline, legible, hbefore⟩, declared⟩ := ih.block hp hblock
    exact ⟨⟨.block d, by rw [Primary.tree, hline], legible, hbefore⟩, trivial, declared⟩
  case h_9 => cases h
  all_goals exact succ_literal hp (by simp [*]) h

lemma succ_unary (ih : Recovers depth) (hp : p.Ends)
    (h : (Parser.unary (depth + 1)).run p = (.done e, p')) :
    (∃ d : Factor, d.tree = e ∧ Legible d.tokens ∧ p = before d.tokens p') ∧
      e.Everywhere .declared := by
  rw [Parser.unary, Attempt.run_bind_eq_done] at h
  obtain ⟨_, _, hnext, h⟩ := h
  cases hnext
  split at h
  · next op hop =>
    have hkind := (UnaryOp.token_of_ofToken? hop).symm
    have hinner : op.token ≠ .endOfInput := by cases op <;> decide
    have hvalue : op.token ∉ [TokenKind.integer, .float, .char] := by cases op <;> decide
    simp only [Attempt.run_bind_eq_done, Attempt.run_pure_eq_done] at h
    obtain ⟨_, _, hsign, _, _, hoperand, rfl, rfl⟩ := h
    obtain ⟨sign, rfl, rfl⟩ := before_of_advance_word hp hkind hinner hsign
    obtain ⟨⟨operand, rfl, legible, rfl⟩, declared⟩ := ih.unary hp.behind hoperand
    refine ⟨⟨.signed op sign operand, rfl, ?_, ?_⟩, trivial, declared⟩
    · simp [Factor.tokens, legible, hasValue_word sign hvalue]
    · simp only [Factor.tokens, ← before_append, List.cons_append, List.nil_append]
  · obtain ⟨⟨d, rfl, legible, hbefore⟩, declared⟩ := ih.primary hp h
    exact ⟨⟨.primary d, rfl, legible, hbefore⟩, declared⟩

lemma succ_expression {n : Nat} (ih : Recovers depth) (hleast : least + n = 6) (hp : p.Ends)
    (h : (Parser.expression (depth + 1) least).run p = (.done e, p')) :
    (∃ d : Tier n, d.tree = e ∧ Legible d.tokens ∧ p = before d.tokens p') ∧
      e.Everywhere .declared ∧ p'.BindsBelow least := by
  rw [Parser.expression, Attempt.run_bind_eq_done] at h
  obtain ⟨_, p₁, hunary, h⟩ := h
  obtain ⟨⟨first, rfl, legible, rfl⟩, declared⟩ := ih.unary hp hunary
  -- Nothing can be added to a factor, whatever operator follows.
  have hloose : p₁.BindsBelow 7 := by
    intro op _
    cases op <;> decide
  obtain ⟨⟨d, ts, htree, legible', htokens, rfl⟩, declared', hp'⟩ :=
    @ih.operators _ _ _ _ _ _ (.factor first) hleast (Nat.zero_le n) legible declared hloose
      hp.behind h
  refine ⟨⟨d, htree, legible', ?_⟩, declared', hp'⟩
  rw [htokens, before_append]
  rfl

/-- Where the operators end the phrase has the tier that was asked for. -/
lemma operators_end {n k : Nat} {left : Tier k} (hkn : k ≤ n) (legible : Legible left.tokens)
    (declared : left.tree.Everywhere .declared) (hp : p.BindsBelow least) :
    (∃ (d : Tier n) (ts : List Token), d.tree = left.tree ∧ Legible d.tokens ∧
      d.tokens = left.tokens ++ ts ∧ p = before ts p) ∧
      left.tree.Everywhere .declared ∧ p.BindsBelow least := by
  obtain ⟨d, htokens, htree⟩ := left.exists_raise hkn
  refine ⟨⟨d, [], htree, htokens ▸ legible, ?_, rfl⟩, declared, hp⟩
  rw [htokens, List.append_nil]

lemma succ_operators {n k : Nat} {left : Tier k} (ih : Recovers depth) (hleast : least + n = 6)
    (hkn : k ≤ n) (legible : Legible left.tokens) (declared : left.tree.Everywhere .declared)
    (hp : p.BindsBelow (7 - k)) (hends : p.Ends)
    (h : (Parser.operators (depth + 1) least left.tree).run p = (.done e, p')) :
    (∃ (d : Tier n) (ts : List Token), d.tree = e ∧ Legible d.tokens ∧
      d.tokens = left.tokens ++ ts ∧ p = before ts p') ∧
      e.Everywhere .declared ∧ p'.BindsBelow least := by
  rw [Parser.operators, Attempt.run_bind_eq_done] at h
  obtain ⟨_, _, hnext, h⟩ := h
  cases hnext
  split at h
  · next hop =>
    cases h
    refine operators_end hkn legible declared (NoOperator.bindsBelow hop)
  · next op hop =>
    split at h
    · next hloose =>
      cases h
      refine operators_end hkn legible declared fun op' hop' => ?_
      obtain rfl : op = op' := Option.some.inj (hop.symm.trans hop')
      exact hloose
    · next htight =>
      have hkind := (BinOp.token_of_ofToken? hop).symm
      have hinner : op.token ≠ .endOfInput := by cases op <;> decide
      have hvalue : op.token ∉ [TokenKind.integer, .float, .char] := by cases op <;> decide
      simp only [Attempt.run_bind_eq_done] at h
      obtain ⟨_, _, hsign, _, _, hright, h⟩ := h
      have hbelow := hp op hop
      obtain ⟨sign, rfl, rfl⟩ := before_of_advance_word hends hkind hinner hsign
      -- The operator belongs to tier `l`, so its left side is raised to that tier.
      obtain ⟨l, hl⟩ : ∃ l, op.precedence + l = 5 :=
        ⟨5 - op.precedence, by cases op <;> decide⟩
      have atTier : op ∈ operatorsAt l := mem_operatorsAt_iff.mpr hl
      obtain ⟨raised, htokens, htree⟩ := left.exists_raise (show k ≤ l + 1 by omega)
      obtain ⟨⟨right, rfl, legible', rfl⟩, declared', hp'⟩ :=
        ih.expression (n := l) (by omega) hends.behind hright
      have hlinkTokens := Tier.tokens_link atTier sign right raised
      have hlinkTree := Tier.tree_link atTier sign right raised
      rw [htokens] at hlinkTokens
      rw [htree] at hlinkTree
      rw [← hlinkTree] at h
      obtain ⟨⟨d, ts, hd, hlegible, hts, rfl⟩, hdeclared, hbehind⟩ :=
        ih.operators hleast (show l + 1 ≤ n by omega)
          (by simp [hlinkTokens, legible, legible', hasValue_word sign hvalue])
          (hlinkTree ▸ ⟨trivial, declared, declared'⟩) (hp'.mono (by omega)) hends.behind.behind h
      refine ⟨⟨d, sign.1 :: (right.tokens ++ ts), hd, hlegible, ?_, ?_⟩, hdeclared, hbehind⟩
      · rw [hts, hlinkTokens, List.append_assoc, List.cons_append]
      · simp only [← before_append, List.cons_append, List.nil_append]

lemma succ_block (ih : Recovers depth) {body : List Stmt} (hp : p.Ends)
    (h : (Parser.block (depth + 1)).run p = (.done body, p')) :
    (∃ d : Block, d.body = body ∧ d.line = p.current.line ∧ Legible d.tokens ∧
      p = before d.tokens p') ∧ Stmt.AllEverywhere .declared body := by
  simp only [Parser.block, Attempt.run_bind_eq_done, Attempt.run_pure_eq_done] at h
  obtain ⟨_, _, hopening, _, _, hbody, _, _, hclosing, rfl, rfl⟩ := h
  obtain ⟨opening, rfl, rfl⟩ := before_of_expect hp (by decide) hopening
  obtain ⟨⟨d, rfl, legible, rfl⟩, declared, _⟩ := ih.statements hp.behind hbody
  obtain ⟨closing, rfl, rfl⟩ := before_of_expect hp.behind.behind (by decide) hclosing
  refine ⟨⟨.braces opening d closing, rfl, rfl, ?_, ?_⟩, declared⟩
  · simp [Block.tokens, legible, hasValue_word opening (by decide),
      hasValue_word closing (by decide)]
  · simp only [Block.tokens, ← before_append, List.cons_append, List.nil_append]

lemma succ_statements (ih : Recovers depth) {inBlock : Bool} {body : List Stmt} (hp : p.Ends)
    (h : (Parser.statements (depth + 1) inBlock).run p = (.done body, p')) :
    (∃ d : Statements, d.tree = body ∧ Legible d.tokens ∧ p = before d.tokens p') ∧
      Stmt.AllEverywhere .declared body ∧
      (p'.current.kind = .endOfInput ∨ inBlock = true ∧ p'.current.kind = .rbrace) := by
  rw [Parser.statements, Attempt.run_bind_eq_done] at h
  obtain ⟨_, _, hnext, h⟩ := h
  cases hnext
  split at h
  · next hend =>
    cases h
    exact ⟨⟨.nil, rfl, legible_nil, rfl⟩, trivial, hend⟩
  · simp only [Attempt.run_bind_eq_done, Attempt.run_pure_eq_done] at h
    obtain ⟨_, _, hfirst, _, _, hrest, rfl, rfl⟩ := h
    obtain ⟨⟨first, rfl, legible, rfl⟩, declared⟩ := ih.statement hp hfirst
    obtain ⟨⟨rest, rfl, legible', rfl⟩, declared', hend⟩ := ih.statements hp.behind hrest
    refine ⟨⟨.cons first rest, rfl, ?_, before_append.symm⟩, ⟨declared, declared'⟩, hend⟩
    exact legible_append.mpr ⟨legible, legible'⟩

/-- A statement that is recovered. -/
def Stands (s : Stmt) (p p' : Parser) : Prop :=
  (∃ d : Statement, d.tree = s ∧ Legible d.tokens ∧ p = before d.tokens p') ∧
    s.Everywhere .declared

lemma succ_plainStatement (ih : Recovers depth) {s : Stmt} (hp : p.Ends)
    (h : (plainStatement depth).run p = (.done s, p')) : Stands s p p' := by
  rw [plainStatement, Attempt.run_bind_eq_done] at h
  obtain ⟨_, _, hfirst, h⟩ := h
  obtain ⟨⟨first, rfl, legible, rfl⟩, declared⟩ := ih.wholeExpression hp hfirst
  rw [Attempt.run_bind_eq_done] at h
  obtain ⟨_, _, hnext, h⟩ := h
  cases hnext
  split at h
  · next hkind =>
    split at h
    · next target htree =>
      simp only [Attempt.run_bind_eq_done, Attempt.run_pure_eq_done] at h
      obtain ⟨_, _, hsign, _, _, hvalue, _, _, hsemi, rfl, rfl⟩ := h
      obtain ⟨sign, rfl, rfl⟩ := before_of_advance_word hp.behind hkind (by decide) hsign
      obtain ⟨⟨value, rfl, legible', rfl⟩, declared'⟩ :=
        ih.wholeExpression hp.behind.behind hvalue
      obtain ⟨semi, rfl, rfl⟩ := before_of_expect hp.behind.behind.behind (by decide) hsemi
      obtain ⟨w, hw, hident⟩ := first.exists_name htree
      refine ⟨⟨.assign w sign value semi, by rw [Statement.tree, hident], ?_, ?_⟩, trivial,
        declared'⟩
      · simp [Statement.tokens, hw, legible, legible', hasValue_word sign (by decide),
          hasValue_word semi (by decide)]
      · simp only [Statement.tokens, hw, ← before_append, List.cons_append, List.nil_append]
    · cases h
  · simp only [Attempt.run_bind_eq_done, Attempt.run_pure_eq_done] at h
    obtain ⟨_, _, hsemi, rfl, rfl⟩ := h
    obtain ⟨semi, rfl, rfl⟩ := before_of_expect hp.behind (by decide) hsemi
    refine ⟨⟨.expr first semi, rfl, ?_, ?_⟩, trivial, declared⟩
    · simp [Statement.tokens, legible, hasValue_word semi (by decide)]
    · simp only [Statement.tokens, ← before_append]

/-- The statements that begin with `var`, behind that. -/
lemma varStatement (ih : Recovers depth) {s : Stmt} {keyword : Word .kwVar}
    (hp : (before [keyword.1] p).Ends)
    (h : Attempt.run (do
      let name ← identifier
      let ty ← identifier?
      if (← kind) = .assign then
        let _ ← advance
        let value ← Parser.expression depth 0
        let _ ← expect .semi
        return .varDef name ty value keyword.1.line
      else if ty.isNone then
        Attempt.fail (.missingTypeOrValue name.name keyword.1.line)
      else
        let _ ← expect .semi
        return .varDecl name ty keyword.1.line) p = (.done s, p')) :
    Stands s (before [keyword.1] p) p' := by
  simp only [Attempt.run_bind_eq_done] at h
  obtain ⟨_, _, hname, _, _, hty, _, _, hnext, h⟩ := h
  cases hnext
  obtain ⟨name, rfl, rfl⟩ := before_of_identifier hp.behind hname
  obtain ⟨ty, rfl, rfl⟩ := before_of_identifier? hp.behind.behind hty
  split at h
  · next hkind =>
    simp only [Attempt.run_bind_eq_done, Attempt.run_pure_eq_done] at h
    obtain ⟨_, _, hsign, _, _, hvalue, _, _, hsemi, rfl, rfl⟩ := h
    obtain ⟨sign, rfl, rfl⟩ :=
      before_of_advance_word hp.behind.behind.behind hkind (by decide) hsign
    obtain ⟨⟨value, rfl, legible, rfl⟩, declared⟩ :=
      ih.wholeExpression hp.behind.behind.behind.behind hvalue
    obtain ⟨semi, rfl, rfl⟩ :=
      before_of_expect hp.behind.behind.behind.behind.behind (by decide) hsemi
    refine ⟨⟨.varDef keyword name ty sign value semi, rfl, ?_, ?_⟩, trivial, declared⟩
    · simp [Statement.tokens, legible, legible_optionalTokens, hasValue_word keyword (by decide),
        hasValue_word name (by decide), hasValue_word sign (by decide),
        hasValue_word semi (by decide)]
    · simp only [Statement.tokens, ← before_append, List.cons_append, List.nil_append]
  · split at h
    · cases h
    · next hsome =>
      simp only [Attempt.run_bind_eq_done, Attempt.run_pure_eq_done] at h
      obtain ⟨_, _, hsemi, rfl, rfl⟩ := h
      obtain ⟨semi, rfl, rfl⟩ := before_of_expect hp.behind.behind.behind (by decide) hsemi
      have hdeclared : (ty.map ident).isSome = true := by
        simpa [Option.isSome_iff_ne_none] using hsome
      refine ⟨⟨.varDecl keyword name ty semi, rfl, ?_, ?_⟩, hdeclared⟩
      · simp [Statement.tokens, legible_optionalTokens, hasValue_word keyword (by decide),
          hasValue_word name (by decide), hasValue_word semi (by decide)]
      · simp only [Statement.tokens, ← before_append, List.cons_append, List.nil_append]

/-- The statements that begin with `const`, behind that. -/
lemma constStatement (ih : Recovers depth) {s : Stmt} {keyword : Word .kwConst}
    (hp : (before [keyword.1] p).Ends)
    (h : Attempt.run (do
      let name ← identifier
      let ty ← identifier?
      let _ ← expect .assign
      let value ← Parser.expression depth 0
      if value.isLiteral then
        let _ ← expect .semi
        return .constDef name ty value keyword.1.line
      else
        Attempt.fail (.constNotLiteral name.name keyword.1.line)) p = (.done s, p')) :
    Stands s (before [keyword.1] p) p' := by
  simp only [Attempt.run_bind_eq_done] at h
  obtain ⟨_, _, hname, _, _, hty, _, _, hsign, _, _, hvalue, h⟩ := h
  obtain ⟨name, rfl, rfl⟩ := before_of_identifier hp.behind hname
  obtain ⟨ty, rfl, rfl⟩ := before_of_identifier? hp.behind.behind hty
  obtain ⟨sign, rfl, rfl⟩ := before_of_expect hp.behind.behind.behind (by decide) hsign
  obtain ⟨⟨value, rfl, legible, rfl⟩, _⟩ :=
    ih.wholeExpression hp.behind.behind.behind.behind hvalue
  split at h
  · next hliteral =>
    simp only [Attempt.run_bind_eq_done, Attempt.run_pure_eq_done] at h
    obtain ⟨_, _, hsemi, rfl, rfl⟩ := h
    obtain ⟨semi, rfl, rfl⟩ :=
      before_of_expect hp.behind.behind.behind.behind.behind (by decide) hsemi
    cases htree : value.tree with
    | literal literal =>
      obtain ⟨w, hw, hvalue⟩ := value.exists_literal htree
      refine ⟨⟨.constDef keyword name ty sign w semi, by rw [Statement.tree, hvalue], ?_, ?_⟩,
        trivial, trivial⟩
      · simp [Statement.tokens, hw, legible, legible_optionalTokens,
          hasValue_word keyword (by decide), hasValue_word name (by decide),
          hasValue_word sign (by decide), hasValue_word semi (by decide)]
      · simp only [Statement.tokens, hw, ← before_append, List.cons_append, List.nil_append]
    | _ => simp [htree, Expr.isLiteral] at hliteral
  · cases h

/-- The statements that begin with `if`, behind that. -/
lemma ifStatement (ih : Recovers depth) {s : Stmt} {keyword : Word .kwIf}
    (hp : (before [keyword.1] p).Ends)
    (h : Attempt.run (do
      let test ← Parser.expression depth 0
      let thenBlock ← Parser.block depth
      if (← kind) = .kwElse then
        let _ ← advance
        let elseBlock ← Parser.block depth
        return .ifElse test thenBlock elseBlock keyword.1.line
      else
        return .ifElse test thenBlock [] keyword.1.line) p = (.done s, p')) :
    Stands s (before [keyword.1] p) p' := by
  simp only [Attempt.run_bind_eq_done] at h
  obtain ⟨_, _, htest, _, _, hthen, _, _, hnext, h⟩ := h
  cases hnext
  obtain ⟨⟨test, rfl, legible, rfl⟩, declared⟩ := ih.wholeExpression hp.behind htest
  obtain ⟨⟨thenBlock, rfl, _, legible', rfl⟩, declared'⟩ := ih.block hp.behind.behind hthen
  split at h
  · next hkind =>
    simp only [Attempt.run_bind_eq_done, Attempt.run_pure_eq_done] at h
    obtain ⟨_, _, hotherwise, _, _, helse, rfl, rfl⟩ := h
    obtain ⟨otherwise, rfl, rfl⟩ :=
      before_of_advance_word hp.behind.behind.behind hkind (by decide) hotherwise
    obtain ⟨⟨elseBlock, rfl, _, legible'', rfl⟩, declared''⟩ :=
      ih.block hp.behind.behind.behind.behind helse
    refine ⟨⟨.ifElse keyword test thenBlock otherwise elseBlock, rfl, ?_, ?_⟩, trivial, declared,
      declared', declared''⟩
    · simp [Statement.tokens, legible, legible', legible'', hasValue_word keyword (by decide),
        hasValue_word otherwise (by decide)]
    · simp only [Statement.tokens, ← before_append, List.cons_append, List.nil_append]
  · cases h
    refine ⟨⟨.ifThen keyword test thenBlock, rfl, ?_, ?_⟩, trivial, declared, declared', trivial⟩
    · simp [Statement.tokens, legible, legible', hasValue_word keyword (by decide)]
    · simp only [Statement.tokens, ← before_append, List.cons_append, List.nil_append]

lemma succ_statement (ih : Recovers depth) {s : Stmt} (hp : p.Ends)
    (h : (Parser.statement (depth + 1)).run p = (.done s, p')) : Stands s p p' := by
  rw [Parser.statement, Attempt.run_bind_eq_done] at h
  obtain ⟨_, _, hnext, h⟩ := h
  cases hnext
  split at h
  case h_1 hkind =>
    simp only [Attempt.run_bind_eq_done, Attempt.run_pure_eq_done] at h
    obtain ⟨_, _, hkeyword, _, _, hvalue, _, _, hsemi, rfl, rfl⟩ := h
    obtain ⟨keyword, rfl, rfl⟩ := before_of_advance_word hp hkind (by decide) hkeyword
    obtain ⟨⟨value, rfl, legible, rfl⟩, declared⟩ := ih.wholeExpression hp.behind hvalue
    obtain ⟨semi, rfl, rfl⟩ := before_of_expect hp.behind.behind (by decide) hsemi
    refine ⟨⟨.print keyword value semi, rfl, ?_, ?_⟩, trivial, declared⟩
    · simp [Statement.tokens, legible, hasValue_word keyword (by decide),
        hasValue_word semi (by decide)]
    · simp only [Statement.tokens, ← before_append, List.cons_append, List.nil_append]
  case h_2 hkind =>
    rw [Attempt.run_bind_eq_done] at h
    obtain ⟨_, _, hkeyword, h⟩ := h
    obtain ⟨keyword, rfl, rfl⟩ := before_of_advance_word hp hkind (by decide) hkeyword
    exact ih.varStatement hp h
  case h_3 hkind =>
    rw [Attempt.run_bind_eq_done] at h
    obtain ⟨_, _, hkeyword, h⟩ := h
    obtain ⟨keyword, rfl, rfl⟩ := before_of_advance_word hp hkind (by decide) hkeyword
    exact ih.constStatement hp h
  case h_4 hkind =>
    rw [Attempt.run_bind_eq_done] at h
    obtain ⟨_, _, hkeyword, h⟩ := h
    obtain ⟨keyword, rfl, rfl⟩ := before_of_advance_word hp hkind (by decide) hkeyword
    exact ih.ifStatement hp h
  case h_5 hkind =>
    simp only [Attempt.run_bind_eq_done, Attempt.run_pure_eq_done] at h
    obtain ⟨_, _, hkeyword, _, _, htest, _, _, hbody, rfl, rfl⟩ := h
    obtain ⟨keyword, rfl, rfl⟩ := before_of_advance_word hp hkind (by decide) hkeyword
    obtain ⟨⟨test, rfl, legible, rfl⟩, declared⟩ := ih.wholeExpression hp.behind htest
    obtain ⟨⟨body, rfl, _, legible', rfl⟩, declared'⟩ := ih.block hp.behind.behind hbody
    refine ⟨⟨.whileLoop keyword test body, rfl, ?_, ?_⟩, trivial, declared, declared'⟩
    · simp [Statement.tokens, legible, legible', hasValue_word keyword (by decide)]
    · simp only [Statement.tokens, ← before_append, List.cons_append, List.nil_append]
  case h_6 hkind =>
    simp only [Attempt.run_bind_eq_done, Attempt.run_pure_eq_done] at h
    obtain ⟨_, _, hkeyword, _, _, hsemi, rfl, rfl⟩ := h
    obtain ⟨keyword, rfl, rfl⟩ := before_of_advance_word hp hkind (by decide) hkeyword
    obtain ⟨semi, rfl, rfl⟩ := before_of_expect hp.behind (by decide) hsemi
    refine ⟨⟨.breakLoop keyword semi, rfl, ?_, rfl⟩, trivial⟩
    simp [Statement.tokens, hasValue_word keyword (by decide), hasValue_word semi (by decide)]
  case h_7 hkind =>
    simp only [Attempt.run_bind_eq_done, Attempt.run_pure_eq_done] at h
    obtain ⟨_, _, hkeyword, _, _, hsemi, rfl, rfl⟩ := h
    obtain ⟨keyword, rfl, rfl⟩ := before_of_advance_word hp hkind (by decide) hkeyword
    obtain ⟨semi, rfl, rfl⟩ := before_of_expect hp.behind (by decide) hsemi
    refine ⟨⟨.continueLoop keyword semi, rfl, ?_, rfl⟩, trivial⟩
    simp [Statement.tokens, hasValue_word keyword (by decide), hasValue_word semi (by decide)]
  case h_8 => exact ih.succ_plainStatement hp h

end Recovers

/-- What is read at any depth is derived. -/
lemma recovers : ∀ depth : Nat, Recovers depth
  | 0 => .zero
  | depth + 1 =>
    have ih := recovers depth
    { statements := ih.succ_statements
      block := ih.succ_block
      statement := ih.succ_statement
      expression := ih.succ_expression
      operators := ih.succ_operators
      unary := ih.succ_unary
      primary := ih.succ_primary }

end Parser

end BlockLang
