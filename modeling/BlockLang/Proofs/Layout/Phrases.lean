import BlockLang.Proofs.Layout.Tidying

/-!
# The texts of phrases

The texts of a phrase are a language: the words of all derivations of an expression, of a block, of
a statement or of some statements, whatever lines the tree has (`Expr.phrases`, `Stmt.phrases`).
The alternatives of the grammar say which products of such languages a language contains
(`Expr.binary_phrases` and the lemmas behind it), so that what is done to the parts of a phrase is
done to the phrase.

An expression in parentheses is a phrase of every tier, and without them of its own tier and of
higher ones only.  So it loses its parentheses where a phrase of a tier that is high enough is asked
for (`Tidied.parenthesized`), and what has the words of the canonical form in one place has them in
every place of a higher tier (`Tidied.raise`).
-/

namespace BlockLang

open Grammar Piece

variable {n k level : Nat} {kind : TokenKind} {e : Expr} {pieces : List Piece}
variable {ws ws' vs : List (TokenKind × String)}

/-! ## The words of pieces -/

namespace Piece

@[simp] lemma words_nil : words [] = [] :=
  rfl

@[simp] lemma words_append (pieces pieces' : List Piece) :
    words (pieces ++ pieces') = words pieces ++ words pieces' :=
  List.filterMap_append

@[simp] lemma words_cons_mark : words (.mark kind :: pieces) = kind.sign :: words pieces :=
  rfl

@[simp] lemma words_cons_name {ident : Ident} :
    words (ident.word :: pieces) = (.name, ident.name) :: words pieces :=
  rfl

@[simp] lemma words_cons_space : words (.space :: pieces) = words pieces :=
  rfl

@[simp] lemma words_cons_newline : words (.newline :: pieces) = words pieces :=
  rfl

@[simp] lemma words_cons_indent : words (.indent level :: pieces) = words pieces :=
  rfl

lemma words_parenthesized : words (parenthesized pieces) =
    TokenKind.lparen.sign :: (words pieces ++ [TokenKind.rparen.sign]) := by
  simp [parenthesized]

end Piece

lemma Token.spelled_name (word : Word .name) : word.1.spelled = (.name, (ident word).name) :=
  Prod.ext word.2 rfl

lemma words_typeWords (ty : Option (Word .name)) :
    words (Ident.typeWords (ty.map ident)) = (optionalTokens ty).map Token.spelled := by
  cases ty with
  | none => rfl
  | some word => exact congrArg (fun word => [word]) (Token.spelled_name word).symm

/-! ## The texts of phrases -/

/-- The texts of a phrase of tier `n` for an expression, on whatever lines. -/
def Expr.phrases (n : Nat) (e : Expr) : Language (TokenKind × String) :=
  {ws | ∃ d : Tier n, d.tokens.map Token.spelled = ws ∧ d.tree.eraseLines = e.eraseLines}

/-- The texts of a block with some statements. -/
def Stmt.blockPhrases (body : List Stmt) : Language (TokenKind × String) :=
  {ws | ∃ d : Block, d.tokens.map Token.spelled = ws ∧
    Stmt.eraseAllLines d.body = Stmt.eraseAllLines body}

/-- The texts of a statement. -/
def Stmt.phrases (s : Stmt) : Language (TokenKind × String) :=
  {ws | ∃ d : Statement, d.tokens.map Token.spelled = ws ∧ d.tree.eraseLines = s.eraseLines}

/-- The texts of some statements. -/
def Stmt.allPhrases (body : List Stmt) : Language (TokenKind × String) :=
  {ws | ∃ d : Statements, d.tokens.map Token.spelled = ws ∧
    Stmt.eraseAllLines d.tree = Stmt.eraseAllLines body}

namespace Expr

/-- A phrase of a tier is one of every higher tier. -/
lemma phrases_mono (e : Expr) (hk : k ≤ n) : e.phrases k ≤ e.phrases n := by
  rintro _ ⟨d, rfl, htree⟩
  obtain ⟨d', htokens, htree'⟩ := d.exists_raise hk
  exact ⟨d', by rw [htokens], by rw [htree', htree]⟩

/-- A phrase in parentheses is one of any tier. -/
lemma parens_mem_phrases (n : Nat) (h : ws ∈ e.phrases 5) :
    TokenKind.lparen.sign :: (ws ++ [TokenKind.rparen.sign]) ∈ e.phrases n := by
  obtain ⟨d, rfl, htree⟩ := h
  let parens : Primary := .parens ⟨⟨.lparen, "(", 0⟩, rfl⟩ d ⟨⟨.rparen, ")", 0⟩, rfl⟩
  refine e.phrases_mono (Nat.zero_le n) ⟨.factor (.primary parens), ?_, htree⟩
  rw [Tier.tokens, Factor.tokens, Primary.tokens, List.map_cons, List.map_append]
  rfl

/-- The words of the canonical form of an expression are a phrase of its tier. -/
lemma words_pieces_mem (hw : e.Everywhere .wellFormed) (level : Nat) :
    words (e.pieces level) ∈ e.phrases e.tier := by
  let ts : List Token := (words (e.pieces level)).map fun word => ⟨word.1, word.2, 0⟩
  have hspells : Spells (e.pieces level ++ []) ts := by
    rw [List.append_nil, Spells, List.map_map]
    exact List.map_id _
  obtain ⟨d, ts', hts, -, htree, hnil⟩ :=
    Expr.derived hw (hw.mono NodeCondition.wellFormed_implies_floatsReadBack) level [] ts hspells
  obtain rfl := hnil.eq_nil
  rw [List.append_nil] at hspells hts
  exact ⟨d, hts ▸ hspells, htree⟩

end Expr

namespace Tidied

/-- Parentheses that are not asked for go. -/
lemma unparen (h : ws ∈ e.phrases k) (hk : k ≤ 5) (hn : k ≤ n) :
    Tidied (e.phrases n) (TokenKind.lparen.sign :: (ws ++ [TokenKind.rparen.sign])) ws := by
  have hinner := e.phrases_mono hk h
  refine .step (e.parens_mem_phrases n hinner) (e.phrases_mono hn h) ?_
  obtain ⟨d, rfl, -⟩ := hinner
  simpa using Tidies.parens [] [] d

/-- What can be done to an expression can be done in parentheses. -/
lemma inParens (h : Tidied (e.phrases 5) ws vs) (n : Nat) :
    Tidied (e.phrases n) (TokenKind.lparen.sign :: (ws ++ [TokenKind.rparen.sign]))
      (TokenKind.lparen.sign :: (vs ++ [TokenKind.rparen.sign])) :=
  h.frame [TokenKind.lparen.sign] [TokenKind.rparen.sign]
    fun _ hmem => e.parens_mem_phrases n hmem

/-- An expression in parentheses keeps them where they are asked for. -/
lemma parenthesized (hw : e.Everywhere .wellFormed) (n level : Nat) :
    Tidied (e.phrases n) (words (parenthesized (e.pieces level))) (words (e.piecesAt n level)) := by
  have hmem := e.words_pieces_mem hw level
  rw [words_parenthesized]
  unfold Expr.piecesAt
  split
  · rw [words_parenthesized]
    exact .refl (e.parens_mem_phrases n (e.phrases_mono e.tier_le hmem))
  · next hn => exact unparen hmem e.tier_le (Nat.not_lt.mp hn)

/-- In a place of a higher tier fewer expressions are in parentheses. -/
lemma raise (h : Tidied (e.phrases k) ws (words (e.piecesAt k level)))
    (hw : e.Everywhere .wellFormed) (hk : k ≤ n) :
    Tidied (e.phrases n) ws (words (e.piecesAt n level)) := by
  refine (h.mono (e.phrases_mono hk)).trans ?_
  by_cases hpiece : k < e.tier
  · rw [Expr.piecesAt, if_pos hpiece]
    exact parenthesized hw n level
  · have htier := Nat.not_lt.mp hpiece
    rw [Expr.piecesAt_of_tier_le htier, Expr.piecesAt_of_tier_le (htier.trans hk)]
    exact .refl (e.phrases_mono (htier.trans hk) (e.words_pieces_mem hw level))

/-- Words that stay as they are. -/
lemma words (ws : List (TokenKind × String)) : Tidied {ws} ws ws :=
  .refl (Set.mem_singleton ws)

end Tidied

/-! ## The word for a literal -/

/-- The value of a literal without its line is the value of its token on no line. -/
lemma Token.HasValue.literalOf_eq {word : LiteralWord} (h : word.1.HasValue) :
    Parser.literalOf ⟨word.1.kind, word.1.text, 0⟩ = .ok (literalValue word).eraseLine := by
  have hvalue := Parser.literalOf_of_hasValue (word.reline fun _ => 0) (h.reline _)
  rw [literalValue_reline] at hvalue
  rw [← Literal.relabel_erasing]
  exact hvalue

/-- The word for a literal has the kind of the token that the literal was read from. -/
lemma word_literalValue (word : LiteralWord) :
    ∃ text, (literalValue word).word = .word word.1.kind text := by
  obtain ⟨⟨kind, text, line⟩, hkind⟩ := word
  simp only [List.mem_cons, List.not_mem_nil, or_false] at hkind
  obtain rfl | rfl | rfl | rfl | rfl := hkind
  all_goals exact ⟨_, rfl⟩

/-- The word for a literal is a token of the same kind and of the same value. -/
lemma exists_word_literalValue {word : LiteralWord} (hw : (literalValue word).IsWritten) :
    ∃ word' : LiteralWord, word'.1.kind = word.1.kind ∧ word'.1.Proper ∧
      (literalValue word').eraseLine = (literalValue word).eraseLine ∧
      words [(literalValue word).word] = [word'.1.spelled] := by
  obtain ⟨text, htext⟩ := word_literalValue word
  obtain ⟨kind', text', hword, -, hreads⟩ := Literal.reads_word hw
  obtain ⟨rfl, rfl⟩ := Piece.word.inj (htext.symm.trans hword)
  have hinner : word.1.kind ≠ .endOfInput := fun hend => absurd (hend ▸ word.2) (by decide)
  have hspells : Spells [(literalValue word).word] [⟨word.1.kind, text, 0⟩] := by
    rw [htext]
    rfl
  obtain ⟨word', ts', hts, hvalue, hsame, -⟩ := hspells.literal hw
    (NodeCondition.wellFormed_implies_floatsReadBack.onExpr _ hw)
  obtain ⟨hword', -⟩ := List.cons_eq_cons.mp hts
  refine ⟨word', by rw [← hword'], ⟨?_, hvalue⟩, hsame, by rw [htext, ← hword']; rfl⟩
  rw [← hword']
  exact Cursor.matches_of_reads (hreads [] .nil) hinner

/-- A literal that is neither a number nor a character is a keyword. -/
lemma spelling?_of_literalWord (word : LiteralWord)
    (h : word.1.kind ∉ [TokenKind.integer, .float, .char]) :
    word.1.kind.spelling?.isSome = true := by
  obtain ⟨⟨kind, text, line⟩, hkind⟩ := word
  simp only [List.mem_cons, List.not_mem_nil, or_false, not_or] at hkind h
  obtain rfl | rfl | rfl | rfl | rfl := hkind
  all_goals first | rfl | simp at h

/-- The word for a literal is another spelling of its token, or the same one. -/
lemma Tidied.literal {word : LiteralWord} (h : word.1.Proper)
    (hw : (literalValue word).IsWritten) :
    Tidied ((Expr.literal (literalValue word)).phrases 0) [word.1.spelled]
      (Piece.words [(literalValue word).word]) := by
  obtain ⟨word', hkind', h', hsame, hwords⟩ := exists_word_literalValue hw
  have hmem : [word.1.spelled] ∈ (Expr.literal (literalValue word)).phrases 0 :=
    ⟨.factor (.primary (.literal word)), rfl, rfl⟩
  have hmem' : [word'.1.spelled] ∈ (Expr.literal (literalValue word)).phrases 0 :=
    ⟨.factor (.primary (.literal word')), rfl, congrArg Expr.literal hsame⟩
  rw [hwords]
  by_cases hkind : word.1.kind ∈ [TokenKind.integer, .float, .char]
  · have hread' := h'.hasValue.literalOf_eq
    have hmatches := h'.isMatch
    rw [hkind', hsame] at hread'
    rw [hkind'] at hmatches
    refine .step hmem hmem' ?_
    rw [Token.spelled, Token.spelled, hkind']
    exact .respelled [] [] hkind hmatches h.hasValue.literalOf_eq hread'
  · have hspelling := spelling?_of_literalWord word hkind
    have hsign : word'.1.spelled = word.1.spelled := by
      rw [h.spelled_eq_sign hspelling, h'.spelled_eq_sign (hkind' ▸ hspelling), hkind']
    rw [hsign]
    exact .refl hmem

/-- A name stays as it is. -/
lemma Tidied.name (word : Word .name) : Tidied ((Expr.name (ident word)).phrases 0)
    [word.1.spelled] (Piece.words [(ident word).word]) := by
  have hword : Piece.words [(ident word).word] = [word.1.spelled] :=
    congrArg (fun word => [word]) (Token.spelled_name word).symm
  rw [hword]
  exact .refl ⟨.factor (.primary (.name word)), rfl, rfl⟩

/-! ## Phrases that are made of phrases -/

namespace Expr

lemma unary_phrases {op : UnaryOp} (sign : Word op.token) (operand : Expr) (line : Nat) :
    {[sign.1.spelled]} * operand.phrases 0 ≤ (unary op operand line).phrases 0 := by
  rintro _ ⟨_, rfl, _, ⟨⟨f⟩, rfl, htree⟩, rfl⟩
  refine ⟨.factor (.signed op sign f), rfl, ?_⟩
  simp only [Tier.tree, Factor.tree, eraseLines] at htree ⊢
  rw [htree]

lemma binary_phrases {op : BinOp} (atTier : op ∈ operatorsAt n) (sign : Word op.token)
    (left right : Expr) (line : Nat) :
    left.phrases (n + 1) * ({[sign.1.spelled]} * right.phrases n) ≤
      (binary op left right line).phrases (n + 1) := by
  rintro _ ⟨_, ⟨d, rfl, htree⟩, _, ⟨_, rfl, _, ⟨d', rfl, htree'⟩, rfl⟩, rfl⟩
  refine ⟨.link op atTier sign d' d, ?_, ?_⟩
  · simp [Tier.tokens_link]
  · rw [Tier.tree_link, eraseLines, eraseLines, htree, htree']

lemma block_phrases (n : Nat) (body : List Stmt) (line : Nat) :
    Stmt.blockPhrases body ≤ (block body line).phrases n := by
  rintro _ ⟨d, rfl, hbody⟩
  refine phrases_mono _ (Nat.zero_le n) ⟨.factor (.primary (.block d)), rfl, ?_⟩
  simp only [Tier.tree, Factor.tree, Primary.tree, eraseLines, hbody]

end Expr

namespace Stmt

lemma braces_phrases (opening : Word .lbrace) (closing : Word .rbrace) (body : List Stmt) :
    {[opening.1.spelled]} * (allPhrases body * {[closing.1.spelled]}) ≤ blockPhrases body := by
  rintro _ ⟨_, rfl, _, ⟨_, ⟨d, rfl, htree⟩, _, rfl, rfl⟩, rfl⟩
  exact ⟨.braces opening d closing, by simp [Block.tokens], htree⟩

lemma cons_phrases (first : Stmt) (rest : List Stmt) :
    first.phrases * allPhrases rest ≤ allPhrases (first :: rest) := by
  rintro _ ⟨_, ⟨d, rfl, htree⟩, _, ⟨d', rfl, htree'⟩, rfl⟩
  refine ⟨.cons d d', by simp [Statements.tokens], ?_⟩
  rw [Statements.tree, eraseAllLines, eraseAllLines, htree, htree']

lemma print_phrases (keyword : Word .kwPrint) (semi : Word .semi) (value : Expr) (line : Nat) :
    {[keyword.1.spelled]} * (value.phrases 5 * {[semi.1.spelled]}) ≤
      (print value line).phrases := by
  rintro _ ⟨_, rfl, _, ⟨_, ⟨d, rfl, htree⟩, _, rfl, rfl⟩, rfl⟩
  refine ⟨.print keyword d semi, by simp [Statement.tokens], ?_⟩
  rw [Statement.tree, eraseLines, eraseLines, htree]

lemma varDef_phrases (keyword : Word .kwVar) (name : Word .name) (ty : Option (Word .name))
    (sign : Word .assign) (semi : Word .semi) (value : Expr) (line : Nat) :
    {(keyword.1 :: name.1 :: (optionalTokens ty ++ [sign.1])).map Token.spelled} *
        (value.phrases 5 * {[semi.1.spelled]}) ≤
      (varDef (ident name) (ty.map ident) value line).phrases := by
  rintro _ ⟨_, rfl, _, ⟨_, ⟨d, rfl, htree⟩, _, rfl, rfl⟩, rfl⟩
  refine ⟨.varDef keyword name ty sign d semi, by simp [Statement.tokens], ?_⟩
  rw [Statement.tree, eraseLines, eraseLines, htree]

lemma constDef_phrases (keyword : Word .kwConst) (name : Word .name) (ty : Option (Word .name))
    (sign : Word .assign) (semi : Word .semi) (value : Literal) (line : Nat) :
    {(keyword.1 :: name.1 :: (optionalTokens ty ++ [sign.1])).map Token.spelled} *
        ((Expr.literal value).phrases 5 * {[semi.1.spelled]}) ≤
      (constDef (ident name) (ty.map ident) (.literal value) line).phrases := by
  rintro _ ⟨_, rfl, _, ⟨_, ⟨d, rfl, htree⟩, _, rfl, rfl⟩, rfl⟩
  cases hd : d.tree with
  | literal value' =>
    obtain ⟨w, hw, rfl⟩ := d.exists_literal hd
    refine ⟨.constDef keyword name ty sign w semi, by simp [Statement.tokens, hw], ?_⟩
    rw [Statement.tree, eraseLines, eraseLines, ← hd, htree]
  | _ => rw [hd] at htree; cases htree

lemma assign_phrases (sign : Word .assign) (semi : Word .semi) (target : Ident) (value : Expr)
    (line : Nat) :
    (Expr.name target).phrases 5 *
        ({[sign.1.spelled]} * (value.phrases 5 * {[semi.1.spelled]})) ≤
      (assign target value line).phrases := by
  rintro _ ⟨_, ⟨d, rfl, htree⟩, _, ⟨_, rfl, _, ⟨_, ⟨d', rfl, htree'⟩, _, rfl, rfl⟩, rfl⟩, rfl⟩
  cases hd : d.tree with
  | name target' =>
    obtain ⟨w, hw, rfl⟩ := d.exists_name hd
    refine ⟨.assign w sign d' semi, by simp [Statement.tokens, hw], ?_⟩
    rw [hd] at htree
    rw [Statement.tree, eraseLines, eraseLines, htree', Expr.name.inj htree]
  | _ => rw [hd] at htree; cases htree

lemma ifThen_phrases (keyword : Word .kwIf) (test : Expr) (thenBlock : List Stmt) (line : Nat) :
    {[keyword.1.spelled]} * (test.phrases 5 * blockPhrases thenBlock) ≤
      (ifElse test thenBlock [] line).phrases := by
  rintro _ ⟨_, rfl, _, ⟨_, ⟨d, rfl, htree⟩, _, ⟨thenD, rfl, hthen⟩, rfl⟩, rfl⟩
  refine ⟨.ifThen keyword d thenD, by simp [Statement.tokens], ?_⟩
  rw [Statement.tree, eraseLines, eraseLines, htree, hthen]

lemma ifElse_phrases (keyword : Word .kwIf) (otherwise : Word .kwElse) (test : Expr)
    (thenBlock elseBlock : List Stmt) (line : Nat) :
    {[keyword.1.spelled]} * (test.phrases 5 *
        (blockPhrases thenBlock * ({[otherwise.1.spelled]} * blockPhrases elseBlock))) ≤
      (ifElse test thenBlock elseBlock line).phrases := by
  rintro _ ⟨_, rfl, _, ⟨_, ⟨d, rfl, htree⟩, _, ⟨_, ⟨thenD, rfl, hthen⟩, _,
    ⟨_, rfl, _, ⟨elseD, rfl, helse⟩, rfl⟩, rfl⟩, rfl⟩, rfl⟩
  refine ⟨.ifElse keyword d thenD otherwise elseD, by simp [Statement.tokens], ?_⟩
  rw [Statement.tree, eraseLines, eraseLines, htree, hthen, helse]

lemma whileLoop_phrases (keyword : Word .kwWhile) (test : Expr) (body : List Stmt) (line : Nat) :
    {[keyword.1.spelled]} * (test.phrases 5 * blockPhrases body) ≤
      (whileLoop test body line).phrases := by
  rintro _ ⟨_, rfl, _, ⟨_, ⟨d, rfl, htree⟩, _, ⟨bodyD, rfl, hbody⟩, rfl⟩, rfl⟩
  refine ⟨.whileLoop keyword d bodyD, by simp [Statement.tokens], ?_⟩
  rw [Statement.tree, eraseLines, eraseLines, htree, hbody]

lemma expr_phrases (semi : Word .semi) (value : Expr) :
    value.phrases 5 * {[semi.1.spelled]} ≤ (expr value).phrases := by
  rintro _ ⟨_, ⟨d, rfl, htree⟩, _, rfl, rfl⟩
  refine ⟨.expr d semi, by simp [Statement.tokens], ?_⟩
  rw [Statement.tree, eraseLines, eraseLines, htree]

end Stmt

end BlockLang
