import BlockLang.Proofs.Grammar.Parsing
import BlockLang.Proofs.Token.Seams

/-!
# Texts of programs one below the other

Two texts of programs, one below the other, are the text of a program, which has the statements of
both (`Source.parse_above`).  No statement at the end of the upper text goes on in the lower one:
the derivations of the two are simply put together (`Statements.append`), and what can be derived
is parsed in one way only.  The lower text is further down, so that its derivation has other lines
(`Statements.reline`) and its program has them too (`Statements.tree_reline`).
-/

namespace BlockLang

open Grammar

namespace Grammar

/-! ## Statements behind statements -/

def Statements.append : Statements → Statements → Statements
  | .nil, later => later
  | .cons first rest, later => .cons first (rest.append later)

lemma Statements.tokens_append (later : Statements) : ∀ d : Statements,
    (d.append later).tokens = d.tokens ++ later.tokens
  | .nil => rfl
  | .cons first rest => by
    rw [append, tokens, tokens, tokens_append later rest, List.append_assoc]

lemma Statements.tree_append (later : Statements) : ∀ d : Statements,
    (d.append later).tree = d.tree ++ later.tree
  | .nil => rfl
  | .cons first rest => by rw [append, tree, tree, tree_append later rest, List.cons_append]

/-! ## Derivations on other lines -/

variable (f : Nat → Nat)

def Word.reline {kind : TokenKind} (word : Word kind) : Word kind :=
  ⟨word.1.reline f, word.2⟩

def LiteralWord.reline (word : LiteralWord) : LiteralWord :=
  ⟨word.1.reline f, word.2⟩

/-- The word inside of the parentheses becomes another one. -/
def Wrapped.reline {α : Type} (onWord : α → α) : Wrapped α → Wrapped α
  | .bare word => .bare (onWord word)
  | .parens opening inner closing =>
    .parens (opening.reline f) (inner.reline onWord) (closing.reline f)

mutual

/-- The same derivation with other lines. -/
def Tier.reline : {n : Nat} → Tier n → Tier n
  | _, .factor factor => .factor factor.reline
  | _, .tier first links => .tier first.reline links.reline

def Links.reline : {n : Nat} → Links n → Links n
  | _, .nil => .nil
  | _, .cons op atTier sign right rest => .cons op atTier (sign.reline f) right.reline rest.reline

def Factor.reline : Factor → Factor
  | .signed op sign operand => .signed op (sign.reline f) operand.reline
  | .primary primary => .primary primary.reline

def Primary.reline : Primary → Primary
  | .literal word => .literal (word.reline f)
  | .name word => .name (word.reline f)
  | .parens opening inner closing => .parens (opening.reline f) inner.reline (closing.reline f)
  | .block block => .block block.reline

def Block.reline : Block → Block
  | .braces opening body closing => .braces (opening.reline f) body.reline (closing.reline f)

def Statements.reline : Statements → Statements
  | .nil => .nil
  | .cons first rest => .cons first.reline rest.reline

def Statement.reline : Statement → Statement
  | .print keyword value semi => .print (keyword.reline f) value.reline (semi.reline f)
  | .varDef keyword name ty sign value semi =>
    .varDef (keyword.reline f) (name.reline f) (ty.map (Word.reline f)) (sign.reline f)
      value.reline (semi.reline f)
  | .varDecl keyword name ty semi =>
    .varDecl (keyword.reline f) (name.reline f) (ty.map (Word.reline f)) (semi.reline f)
  | .constDef keyword name ty sign value semi =>
    .constDef (keyword.reline f) (name.reline f) (ty.map (Word.reline f)) (sign.reline f)
      (value.reline f (LiteralWord.reline f)) (semi.reline f)
  | .assign target sign value semi =>
    .assign (target.reline f (Word.reline f)) (sign.reline f) value.reline (semi.reline f)
  | .ifThen keyword test thenBlock => .ifThen (keyword.reline f) test.reline thenBlock.reline
  | .ifElse keyword test thenBlock otherwise elseBlock =>
    .ifElse (keyword.reline f) test.reline thenBlock.reline (otherwise.reline f) elseBlock.reline
  | .whileLoop keyword test body => .whileLoop (keyword.reline f) test.reline body.reline
  | .breakLoop keyword semi => .breakLoop (keyword.reline f) (semi.reline f)
  | .continueLoop keyword semi => .continueLoop (keyword.reline f) (semi.reline f)
  | .expr value semi => .expr value.reline (semi.reline f)

end

/-! ## Their tokens -/

lemma optionalTokens_reline {kind : TokenKind} (word : Option (Word kind)) :
    optionalTokens (word.map (Word.reline f)) = (optionalTokens word).map (Token.reline f) := by
  cases word <;> rfl

lemma Wrapped.tokens_reline {α : Type} (text : α → Token) (onWord : α → α)
    (htext : ∀ word, text (onWord word) = (text word).reline f) : ∀ w : Wrapped α,
    (w.reline f onWord).tokens text = (w.tokens text).map (Token.reline f)
  | .bare word => by rw [reline, tokens, tokens, htext]; rfl
  | .parens opening inner closing => by
    rw [reline, tokens, tokens, tokens_reline text onWord htext inner]
    simp [Word.reline]

mutual

lemma Tier.tokens_reline : ∀ {n : Nat} (d : Tier n),
    (d.reline f).tokens = d.tokens.map (Token.reline f)
  | _, .factor factor => factor.tokens_reline
  | _, .tier first links => by
    simp only [Tier.reline, Tier.tokens, first.tokens_reline, links.tokens_reline, List.map_append]

lemma Links.tokens_reline : ∀ {n : Nat} (d : Links n),
    (d.reline f).tokens = d.tokens.map (Token.reline f)
  | _, .nil => rfl
  | _, .cons op atTier sign right rest => by
    simp only [Links.reline, Links.tokens, right.tokens_reline, rest.tokens_reline, List.map_cons,
      List.map_append, Word.reline]

lemma Factor.tokens_reline : ∀ d : Factor,
    (d.reline f).tokens = d.tokens.map (Token.reline f)
  | .signed op sign operand => by
    simp only [Factor.reline, Factor.tokens, operand.tokens_reline, List.map_cons, Word.reline]
  | .primary primary => primary.tokens_reline

lemma Primary.tokens_reline : ∀ d : Primary,
    (d.reline f).tokens = d.tokens.map (Token.reline f)
  | .literal word => rfl
  | .name word => rfl
  | .parens opening inner closing => by
    simp only [Primary.reline, Primary.tokens, inner.tokens_reline, List.map_cons, List.map_append,
      List.map_nil, Word.reline]
  | .block block => block.tokens_reline

lemma Block.tokens_reline : ∀ d : Block, (d.reline f).tokens = d.tokens.map (Token.reline f)
  | .braces opening body closing => by
    simp only [Block.reline, Block.tokens, body.tokens_reline, List.map_cons, List.map_append,
      List.map_nil, Word.reline]

lemma Statements.tokens_reline : ∀ d : Statements,
    (d.reline f).tokens = d.tokens.map (Token.reline f)
  | .nil => rfl
  | .cons first rest => by
    simp only [Statements.reline, Statements.tokens, first.tokens_reline, rest.tokens_reline,
      List.map_append]

lemma Statement.tokens_reline : ∀ d : Statement,
    (d.reline f).tokens = d.tokens.map (Token.reline f)
  | .print keyword value semi | .expr value semi => by
    simp only [Statement.reline, Statement.tokens, value.tokens_reline, List.map_cons,
      List.map_append, List.map_nil, Word.reline]
  | .varDef keyword name ty sign value semi => by
    simp only [Statement.reline, Statement.tokens, optionalTokens_reline, value.tokens_reline,
      List.map_cons, List.map_append, List.map_nil, Word.reline]
  | .varDecl keyword name ty semi => by
    simp only [Statement.reline, Statement.tokens, optionalTokens_reline, List.map_cons,
      List.map_append, List.map_nil, Word.reline]
  | .constDef keyword name ty sign value semi => by
    have hvalue := value.tokens_reline f (·.1) (LiteralWord.reline f) fun _ => rfl
    simp only [Statement.reline, Statement.tokens, optionalTokens_reline, hvalue,
      List.map_cons, List.map_append, List.map_nil, Word.reline]
  | .assign target sign value semi => by
    have htarget := target.tokens_reline f (·.1) (Word.reline f) fun _ => rfl
    simp only [Statement.reline, Statement.tokens, htarget, value.tokens_reline, List.map_cons,
      List.map_append, List.map_nil, Word.reline]
  | .ifThen keyword test thenBlock => by
    simp only [Statement.reline, Statement.tokens, test.tokens_reline, thenBlock.tokens_reline,
      List.map_cons, List.map_append, Word.reline]
  | .ifElse keyword test thenBlock otherwise elseBlock => by
    simp only [Statement.reline, Statement.tokens, test.tokens_reline, thenBlock.tokens_reline,
      elseBlock.tokens_reline, List.map_cons, List.map_append, Word.reline]
  | .whileLoop keyword test body => by
    simp only [Statement.reline, Statement.tokens, test.tokens_reline, body.tokens_reline,
      List.map_cons, List.map_append, Word.reline]
  | .breakLoop keyword semi => rfl
  | .continueLoop keyword semi => rfl

end

/-! ## Their programs -/

lemma literalValue_reline (word : LiteralWord) :
    literalValue (word.reline f) = (literalValue word).relabel (.lines f) := by
  obtain ⟨⟨kind, text, line⟩, hkind⟩ := word
  simp only [List.mem_cons, List.not_mem_nil, or_false] at hkind
  obtain rfl | rfl | rfl | rfl | rfl := hkind <;> rfl

lemma Wrapped.word_reline {α : Type} {onWord : α → α} : ∀ w : Wrapped α,
    (w.reline f onWord).word = onWord w.word
  | .bare _ => rfl
  | .parens _ inner _ => inner.word_reline

lemma ty_reline (ty : Option (Word .name)) : (ty.map (Word.reline f)).map ident =
    (ty.map ident).map (Ident.relabelType (.lines f)) := by
  cases ty <;> rfl

mutual

lemma Tier.tree_reline : ∀ {n : Nat} (d : Tier n),
    (d.reline f).tree = d.tree.relabel (.lines f)
  | _, .factor factor => factor.tree_reline
  | _, .tier first links => by
    rw [Tier.reline, Tier.tree, first.tree_reline, links.tree_reline, Tier.tree]

lemma Links.tree_reline : ∀ {n : Nat} (d : Links n) (left : Expr),
    (d.reline f).tree (left.relabel (.lines f)) = (d.tree left).relabel (.lines f)
  | _, .nil, _ => rfl
  | _, .cons op _ sign right rest, left => by
    rw [Links.reline, Links.tree, right.tree_reline, Links.tree, ← rest.tree_reline, Expr.relabel]
    rfl

lemma Factor.tree_reline : ∀ d : Factor, (d.reline f).tree = d.tree.relabel (.lines f)
  | .signed op sign operand => by
    rw [Factor.reline, Factor.tree, operand.tree_reline, Factor.tree, Expr.relabel]
    rfl
  | .primary primary => primary.tree_reline

lemma Primary.tree_reline : ∀ d : Primary, (d.reline f).tree = d.tree.relabel (.lines f)
  | .literal word => congrArg Expr.literal (literalValue_reline f word)
  | .name _ => rfl
  | .parens _ inner _ => inner.tree_reline
  | .block block => by
    rw [Primary.reline, Primary.tree, block.body_reline, Primary.tree, Expr.relabel]
    obtain ⟨opening, _, _⟩ := block
    rfl

lemma Block.body_reline : ∀ d : Block,
    (d.reline f).body = Stmt.relabelAll (.lines f) d.body
  | .braces _ body _ => body.tree_reline

lemma Statements.tree_reline : ∀ d : Statements,
    (d.reline f).tree = Stmt.relabelAll (.lines f) d.tree
  | .nil => rfl
  | .cons first rest => by
    rw [Statements.reline, Statements.tree, first.tree_reline, rest.tree_reline, Statements.tree,
      Stmt.relabelAll]

lemma Statement.tree_reline : ∀ d : Statement, (d.reline f).tree = d.tree.relabel (.lines f)
  | .print keyword value _ => by
    rw [Statement.reline, Statement.tree, value.tree_reline, Statement.tree, Stmt.relabel]
    rfl
  | .varDef keyword name ty _ value _ => by
    rw [Statement.reline, Statement.tree, value.tree_reline, ty_reline, Statement.tree,
      Stmt.relabel]
    rfl
  | .varDecl keyword name ty _ => by
    rw [Statement.reline, Statement.tree, ty_reline, Statement.tree, Stmt.relabel]
    rfl
  | .constDef keyword name ty _ value _ => by
    rw [Statement.reline, Statement.tree, value.word_reline, literalValue_reline, ty_reline,
      Statement.tree, Stmt.relabel]
    rfl
  | .assign target sign value _ => by
    rw [Statement.reline, Statement.tree, target.word_reline, value.tree_reline, Statement.tree,
      Stmt.relabel]
    rfl
  | .ifThen keyword test thenBlock => by
    rw [Statement.reline, Statement.tree, test.tree_reline, thenBlock.body_reline, Statement.tree,
      Stmt.relabel]
    rfl
  | .ifElse keyword test thenBlock _ elseBlock => by
    rw [Statement.reline, Statement.tree, test.tree_reline, thenBlock.body_reline,
      elseBlock.body_reline, Statement.tree, Stmt.relabel]
    rfl
  | .whileLoop keyword test body => by
    rw [Statement.reline, Statement.tree, test.tree_reline, body.body_reline, Statement.tree,
      Stmt.relabel]
    rfl
  | .breakLoop keyword _ => rfl
  | .continueLoop keyword _ => rfl
  | .expr value _ => by
    rw [Statement.reline, Statement.tree, value.tree_reline, Statement.tree, Stmt.relabel]

end

end Grammar

/-- Whether a token can be read does not depend on its line. -/
lemma Token.HasValue.reline {token : Token} (f : Nat → Nat) (h : token.HasValue) :
    (token.reline f).HasValue := by
  obtain ⟨kind, text, line⟩ := token
  obtain ⟨value, hvalue⟩ := h
  refine ⟨value.relabel (.lines f), ?_⟩
  rw [Parser.literalOf] at hvalue ⊢
  dsimp only [Token.reline] at hvalue ⊢
  split at hvalue
  · split at hvalue
    · next hlimit =>
      cases hvalue
      exact if_pos hlimit
    · cases hvalue
  · split at hvalue <;> cases hvalue
    rfl
  · split at hvalue <;> cases hvalue
    rfl
  · cases hvalue
    rfl

lemma Grammar.Legible.reline {ts : List Token} (f : Nat → Nat) (h : Legible ts) :
    Legible (ts.map (Token.reline f)) :=
  List.forall_mem_map.mpr fun token hmem => Token.HasValue.reline f (h token hmem)

namespace Source

/-- Texts of programs one below the other are the text of a program.  It has the statements of the
upper text and then those of the lower text, all of them further down by the number of lines above
them.  No comment, no token and no statement runs across the line end between the two texts. -/
theorem parse_above {above below : String} {first second : Program}
    (habove : parse above = .done first) (hbelow : parse below = .done second) :
    parse (above ++ "\n" ++ below) = .done ⟨first.body ++
      (second.relabel (.lines fun line => line + (1 + above.toList.count '\n'))).body⟩ := by
  obtain ⟨d, last, htokens, _, legible, declared, rfl⟩ := derivation_of_parse habove
  obtain ⟨d', last', htokens', _, legible', declared', rfl⟩ := derivation_of_parse hbelow
  have hlast := last_eq_of_tokens htokens
  generalize hjoined : d.append (d'.reline (· + last)) = joined
  have htree : joined.tree = d.tree ++ Stmt.relabelAll (.lines (· + last)) d'.tree := by
    rw [← hjoined, Statements.tree_append, Statements.tree_reline]
  have hwords : joined.tokens = d.tokens ++ d'.tokens.map (Token.reline (· + last)) := by
    rw [← hjoined, Statements.tokens_append, Statements.tokens_reline]
  have hread := tokens_above htokens htokens'
  rw [← hwords] at hread
  have hlegible : Legible joined.tokens := by
    rw [hwords]
    exact legible_append.mpr ⟨legible, legible'.reline _⟩
  have hdeclared : (⟨joined.tree⟩ : Program).Declared := by
    have hlower : Stmt.AllEverywhere .declared
        (Stmt.relabelAll (.lines (· + last)) d'.tree) :=
      (Stmt.allEverywhere_declared_relabelAll _).mpr declared'
    rw [htree]
    exact Stmt.allEverywhere_append.mpr ⟨declared, hlower⟩
  rw [parse_of_derivation hread hlegible hdeclared, htree, hlast]
  rfl

/-- The upper text ends with a branch that could go on with `else`, behind which is a comment that
the line end closes. -/
theorem parse_above_branching :
    ∃ (above below : String) (first second : Program),
      parse above = .done first ∧ parse below = .done second ∧
        parse (above ++ "\n" ++ below) = .done ⟨[.ifElse (.literal (.bool true 2)) [] [] 2,
          .print (.name ⟨"x", 3⟩) 3]⟩ := by
  let above := "\nif true \x7b\x7d // else"
  let below := "print x;"
  have habove : parse above = .done ⟨[.ifElse (.literal (.bool true 2)) [] [] 2]⟩ := by cbv
  have hbelow : parse below = .done ⟨[.print (.name ⟨"x", 1⟩) 1]⟩ := by cbv
  have hlines : above.toList.count '\n' = 1 := by decide
  have hjoined := parse_above habove hbelow
  rw [hlines] at hjoined
  exact ⟨above, below, _, _, habove, hbelow, hjoined⟩

end Source

end BlockLang
