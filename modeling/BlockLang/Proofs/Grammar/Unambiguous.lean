import BlockLang.Proofs.Grammar.Reading

/-!
# The grammar is unambiguous

Different derivations have different texts (`Grammar.Statements.eq_of_tokens_eq`).  The proof
compares two derivations of the same nonterminal whose texts begin the same input.  They choose
the same alternative, because which one applies shows in the first token, and the parts of the
alternatives are compared one after the other.

What stands behind a text matters where the grammar repeats or omits something.  Behind a phrase
of tier `n` there must not be an operator that could be added to it (`Grammar.Loose`), behind a
statement there must not be an `else`, and behind statements there must not be another one
(`Grammar.Avoids`).
-/

namespace BlockLang.Grammar

variable {n : Nat} {r r₁ r₂ : List Token}

/-! ## What stands behind a text -/

/-- The tokens do not begin with one of the given kinds. -/
def Avoids (kinds : List TokenKind) (r : List Token) : Prop :=
  ∀ token rest, r = token :: rest → token.kind ∉ kinds

/-- The tokens do not begin with an operator of a tier below `n`. -/
def Loose (n : Nat) (r : List Token) : Prop :=
  ∀ token rest, r = token :: rest → ∀ op, BinOp.ofToken? token.kind = some op →
    op.precedence + n ≤ 5

lemma Loose.mono {m : Nat} (h : Loose n r) (hle : m ≤ n) : Loose m r := by
  intro token rest heq op hop
  have := h token rest heq op hop
  omega

lemma avoids_word {kind : TokenKind} {kinds : List TokenKind} (word : Word kind)
    (h : kind ∉ kinds) : Avoids kinds (word.1 :: r) := by
  intro token rest heq
  cases heq
  rwa [word.2]

lemma loose_word {kind : TokenKind} (word : Word kind) (h : BinOp.ofToken? kind = none) :
    Loose n (word.1 :: r) := by
  intro token rest heq op hop
  cases heq
  rw [word.2, h] at hop
  cases hop

lemma StartsIn.loose {kinds : List TokenKind} (h : StartsIn kinds r)
    (hkinds : ∀ kind ∈ kinds, BinOp.ofToken? kind = none) (r' : List Token) :
    Loose n (r ++ r') := by
  obtain ⟨first, rest, rfl, hmem⟩ := h
  intro token _ heq op hop
  cases heq
  rw [hkinds _ hmem] at hop
  cases hop

lemma StartsIn.avoids {kinds kinds' : List TokenKind} (h : StartsIn kinds r)
    (hkinds : ∀ kind ∈ kinds, kind ∉ kinds') (r' : List Token) : Avoids kinds' (r ++ r') := by
  obtain ⟨first, rest, rfl, hmem⟩ := h
  intro token _ heq
  cases heq
  exact hkinds _ hmem

/-- Behind a phrase of tier `n` an operator of this tier may stand. -/
lemma Links.loose (d : Links n) (h : Loose (n + 1) r) : Loose n (d.tokens ++ r) := by
  cases d with
  | nil => exact h.mono (Nat.le_succ n)
  | cons op atTier sign right rest =>
    intro token _ heq op' hop'
    cases heq
    rw [sign.2, BinOp.ofToken?_token, Option.some.injEq] at hop'
    rw [← hop']
    exact Nat.le_of_eq (mem_operatorsAt_iff.mp atTier)

/-- Where no operator can be added there is none. -/
lemma Links.tokens_eq_nil (d : Links n) (h : Loose (n + 1) (d.tokens ++ r)) : d.tokens = [] := by
  cases d with
  | nil => rfl
  | cons op atTier sign right rest =>
    have hprecedence := mem_operatorsAt_iff.mp atTier
    have hloose := h _ _ rfl op (by rw [sign.2, BinOp.ofToken?_token])
    omega

/-! ## The first token -/

/-- Two texts that begin the same input begin in the same way. -/
lemma StartsIn.meet {kinds₁ kinds₂ : List TokenKind} {ts₁ ts₂ : List Token}
    (h₁ : StartsIn kinds₁ ts₁) (h₂ : StartsIn kinds₂ ts₂) (heq : ts₁ ++ r₁ = ts₂ ++ r₂) :
    ∃ kind ∈ kinds₁, kind ∈ kinds₂ := by
  obtain ⟨token₁, rest₁, rfl, hkind₁⟩ := h₁
  obtain ⟨token₂, rest₂, rfl, hkind₂⟩ := h₂
  obtain rfl : token₁ = token₂ := (List.cons.inj heq).1
  exact ⟨_, hkind₁, hkind₂⟩

/-- The beginnings of an operand without operators in front of it. -/
def Primary.starts : Primary → List TokenKind
  | .literal _ => [.integer, .float, .char, .kwTrue, .kwFalse]
  | .name _ => [.name]
  | .parens _ _ _ => [.lparen]
  | .block _ => [.lbrace]

lemma Primary.startsIn_starts (d : Primary) : StartsIn d.starts d.tokens := by
  cases d with
  | literal word => exact ⟨_, _, rfl, word.2⟩
  | name word => exact ⟨_, _, rfl, by simp [starts, word.2]⟩
  | parens opening inner closing => exact ⟨_, _, rfl, by simp [starts, opening.2]⟩
  | block block => exact block.startsIn

/-- The first token of an operand shows its form. -/
lemma Primary.starts_eq (d₁ d₂ : Primary) (h : d₁.tokens ++ r₁ = d₂.tokens ++ r₂) :
    d₁.starts = d₂.starts := by
  obtain ⟨kind, h₁, h₂⟩ := d₁.startsIn_starts.meet d₂.startsIn_starts h
  cases d₁ <;> cases d₂ <;> simp_all [starts]

lemma Factor.signed_ne {op : UnaryOp} (sign : Word op.token) (operand : Factor) (p : Primary) :
    (Factor.signed op sign operand).tokens ++ r₁ ≠ p.tokens ++ r₂ := by
  intro h
  have hsign : StartsIn [op.token] (Factor.signed op sign operand).tokens :=
    ⟨sign.1, _, rfl, by simp [sign.2]⟩
  obtain ⟨kind, hkind, hmem⟩ := hsign.meet p.startsIn h
  rw [List.mem_singleton.mp hkind] at hmem
  cases op <;> exact absurd hmem (by decide)

/-- The beginnings of a statement. -/
def Statement.starts : Statement → List TokenKind
  | .print .. => [.kwPrint]
  | .varDef .. | .varDecl .. => [.kwVar]
  | .constDef .. => [.kwConst]
  | .ifThen .. | .ifElse .. => [.kwIf]
  | .whileLoop .. => [.kwWhile]
  | .breakLoop .. => [.kwBreak]
  | .continueLoop .. => [.kwContinue]
  | .assign .. | .expr .. => exprStarts

lemma Statement.startsIn_starts (d : Statement) : StartsIn d.starts d.tokens := by
  cases d with
  | assign target sign value semi => exact target.startsIn.append _
  | expr value semi => exact value.startsIn.append _
  | print keyword _ _ | varDef keyword _ _ _ _ _ | varDecl keyword _ _ _
  | constDef keyword _ _ _ _ _ | ifThen keyword _ _ | ifElse keyword _ _ _ _
  | whileLoop keyword _ _ | breakLoop keyword _ | continueLoop keyword _ =>
    exact ⟨_, _, rfl, by simp [starts, keyword.2]⟩

lemma Statement.starts_mem (d : Statement) : d.starts ∈ [[.kwPrint], [.kwVar], [.kwConst],
    [.kwIf], [.kwWhile], [.kwBreak], [.kwContinue], exprStarts] := by
  cases d <;> simp [starts]

/-- The first token of a statement shows its form, up to an expression and an assignment, and up
to what is left out. -/
lemma Statement.starts_eq (d₁ d₂ : Statement) (h : d₁.tokens ++ r₁ = d₂.tokens ++ r₂) :
    d₁.starts = d₂.starts := by
  have hdisjoint : ∀ starts₁ ∈ [[.kwPrint], [.kwVar], [.kwConst], [.kwIf], [.kwWhile],
        [.kwBreak], [.kwContinue], exprStarts],
      ∀ starts₂ ∈ [[.kwPrint], [.kwVar], [.kwConst], [.kwIf], [.kwWhile], [.kwBreak],
        [.kwContinue], exprStarts],
      (∃ kind ∈ starts₁, kind ∈ starts₂) → starts₁ = starts₂ := by decide
  exact hdisjoint _ d₁.starts_mem _ d₂.starts_mem (d₁.startsIn_starts.meet d₂.startsIn_starts h)

lemma Block.loose (d : Block) (r : List Token) : Loose n (d.tokens ++ r) :=
  d.startsIn.loose (by decide) r

/-- Behind a statement of a list there is no `else` of its own. -/
lemma Statements.avoids_else (d : Statements) (h : Avoids (.kwElse :: statementStarts) r) :
    Avoids [.kwElse] (d.tokens ++ r) := by
  cases d with
  | nil =>
    intro token rest heq hkind
    exact h token rest heq (by simp_all)
  | cons first rest =>
    rw [Statements.tokens, List.append_assoc]
    exact first.startsIn.avoids (by decide) _

/-! ## Words -/

lemma word_eq {kind : TokenKind} {word₁ word₂ : Word kind} (h : word₁.1 = word₂.1) :
    word₁ = word₂ :=
  Subtype.ext h

lemma word_ne {kind kind' : TokenKind} {word : Word kind} {word' : Word kind'}
    (h : kind ≠ kind') : word.1 ≠ word'.1 := by
  intro heq
  exact h (by rw [← word.2, ← word'.2, heq])

lemma name_ne_lparen (word : Word .name) : word.1.kind ≠ .lparen := by
  rw [word.2]
  decide

lemma literalWord_ne_lparen (word : LiteralWord) : word.1.kind ≠ .lparen := by
  intro heq
  exact absurd word.2 (by rw [heq]; decide)

/-- Whether an optional name is there shows in what stands at its place. -/
lemma optionalTokens_unique {ty₁ ty₂ : Option (Word .name)} (h₁ : Avoids [.name] r₁)
    (h₂ : Avoids [.name] r₂) (h : optionalTokens ty₁ ++ r₁ = optionalTokens ty₂ ++ r₂) :
    ty₁ = ty₂ ∧ r₁ = r₂ := by
  cases ty₁ with
  | none =>
    cases ty₂ with
    | none => exact ⟨rfl, h⟩
    | some word => exact absurd (by simp [word.2]) (h₁ _ _ h)
  | some word₁ =>
    cases ty₂ with
    | none => exact absurd (by simp [word₁.2]) (h₂ _ _ h.symm)
    | some word₂ =>
      obtain ⟨hword, hrest⟩ := List.cons.inj h
      exact ⟨congrArg some (word_eq hword), hrest⟩

/-- A wrapped word is read in one way only. -/
lemma Wrapped.unique {α : Type} {text : α → Token} (htext : Function.Injective text)
    (hkind : ∀ a, (text a).kind ≠ .lparen) : ∀ (w₁ w₂ : Wrapped α) {r₁ r₂ : List Token},
    w₁.tokens text ++ r₁ = w₂.tokens text ++ r₂ → w₁ = w₂ ∧ r₁ = r₂
  | .bare word₁, .bare word₂, _, _, h => by
    obtain ⟨hword, hrest⟩ := List.cons.inj h
    exact ⟨congrArg bare (htext hword), hrest⟩
  | .bare word, .parens opening _ _, _, _, h => by
    have hopening := (List.cons.inj h).1
    exact absurd (hopening ▸ opening.2) (hkind word)
  | .parens opening _ _, .bare word, _, _, h => by
    have hopening := (List.cons.inj h).1
    exact absurd (hopening ▸ opening.2) (hkind word)
  | .parens opening₁ inner₁ closing₁, .parens opening₂ inner₂ closing₂, r₁, r₂, h => by
    simp only [Wrapped.tokens, List.cons_append, List.append_assoc, List.cons.injEq] at h
    obtain ⟨hinner, hrest⟩ := Wrapped.unique htext hkind inner₁ inner₂ h.2
    obtain ⟨hclosing, hrest⟩ := List.cons.inj hrest
    exact ⟨by rw [word_eq h.1, hinner, word_eq hclosing], hrest⟩

/-- A phrase is a factor and what operators add to it. -/
lemma Tier.exists_factor : ∀ {n : Nat} (d : Tier n), n ≤ 5 → ∃ (f : Factor) (added : List Token),
    d.tokens = f.tokens ++ added ∧ ∀ r, Loose 5 (added ++ r) → added = []
  | _, .factor f, _ => ⟨f, [], (List.append_nil _).symm, fun _ _ => rfl⟩
  | _, .tier first links, hn => by
    obtain ⟨f, added, htokens, hadded⟩ := first.exists_factor (by omega)
    refine ⟨f, added ++ links.tokens, ?_, fun r hloose => ?_⟩
    · rw [Tier.tokens, htokens, List.append_assoc]
    · rw [List.append_assoc] at hloose
      have hnil := hadded _ hloose
      rw [hnil, List.nil_append] at hloose ⊢
      exact links.tokens_eq_nil (hloose.mono hn)

/-- A factor that does not begin with an operator is an operand. -/
lemma Factor.exists_primary {token : Token} (f : Factor) (h : f.tokens ++ r₁ = token :: r₂)
    (hkind : token.kind ∈ primaryStarts) : ∃ p : Primary, f = .primary p := by
  cases f with
  | signed op sign operand =>
    obtain ⟨rfl, _⟩ := List.cons.inj h
    rw [sign.2] at hkind
    cases op <;> exact absurd hkind (by decide)
  | primary p => exact ⟨p, rfl⟩

/-- A name in parentheses ends where an expression with the same text ends, if no operator
follows the name. -/
lemma Wrapped.rest_eq : ∀ (w : Wrapped (Word .name)) (d : Tier 5) {r₁ r₂ : List Token},
    w.tokens (·.1) ++ r₁ = d.tokens ++ r₂ → Loose 5 r₁ → r₁ = r₂
  | .bare word, d, r₁, r₂, h, hr₁ => by
    obtain ⟨f, added, htokens, hadded⟩ := d.exists_factor (Nat.le_refl 5)
    rw [htokens, List.append_assoc] at h
    obtain ⟨p, rfl⟩ := f.exists_primary h.symm (by rw [word.2]; decide)
    have hstarts := Primary.starts_eq (.name word) p h
    cases p with
    | name word' =>
      obtain ⟨_, rfl⟩ := List.cons.inj h
      rw [hadded _ hr₁]
      rfl
    | literal _ | parens _ _ _ | block _ => cases hstarts
  | .parens opening inner closing, d, r₁, r₂, h, hr₁ => by
    obtain ⟨f, added, htokens, hadded⟩ := d.exists_factor (Nat.le_refl 5)
    rw [htokens, List.append_assoc] at h
    obtain ⟨p, rfl⟩ := f.exists_primary h.symm (by rw [opening.2]; decide)
    have hstarts : [.lparen] = p.starts := by
      have hopening : StartsIn [.lparen] (Wrapped.parens opening inner closing |>.tokens (·.1)) :=
        ⟨opening.1, _, rfl, by simp [opening.2]⟩
      obtain ⟨kind, hmem, hkind⟩ := hopening.meet p.startsIn_starts h
      cases p <;> simp_all [Primary.starts]
    cases p with
    | parens opening' inner' closing' =>
      simp only [Wrapped.tokens, Factor.tokens, Primary.tokens, List.cons_append,
        List.append_assoc, List.cons.injEq] at h
      have hrest := Wrapped.rest_eq inner inner' h.2 (loose_word closing (by decide))
      obtain ⟨_, rfl⟩ := List.cons.inj hrest
      rw [hadded _ hr₁]
      rfl
    | literal _ | name _ | block _ => cases hstarts

/-! ## Derivations -/

/-- An expression that ends with a given mark, provided that one expression begins an input in one
way only. -/
lemma Tier.closed_unique {kind : TokenKind} {value₁ value₂ : Tier 5} {mark₁ mark₂ : Word kind}
    (hunique : ∀ {r₁ r₂ : List Token}, value₁.tokens ++ r₁ = value₂.tokens ++ r₂ →
      Loose 5 r₁ → Loose 5 r₂ → value₁ = value₂ ∧ r₁ = r₂)
    (hkind : BinOp.ofToken? kind = none)
    (h : value₁.tokens ++ mark₁.1 :: r₁ = value₂.tokens ++ mark₂.1 :: r₂) :
    value₁ = value₂ ∧ mark₁ = mark₂ ∧ r₁ = r₂ := by
  obtain ⟨hvalue, hmark⟩ := hunique h (loose_word mark₁ hkind) (loose_word mark₂ hkind)
  obtain ⟨hword, hrest⟩ := List.cons.inj hmark
  exact ⟨hvalue, word_eq hword, hrest⟩

mutual

/-- One phrase of a tier begins an input, if no operator of this tier follows it. -/
lemma Tier.unique : ∀ {n : Nat} (d₁ d₂ : Tier n) {r₁ r₂ : List Token},
    d₁.tokens ++ r₁ = d₂.tokens ++ r₂ → Loose n r₁ → Loose n r₂ → d₁ = d₂ ∧ r₁ = r₂
  | _, .factor f₁, .factor f₂, r₁, r₂, h, _, _ => by
    obtain ⟨rfl, hrest⟩ := Factor.unique f₁ f₂ h
    exact ⟨rfl, hrest⟩
  | _, .tier first₁ links₁, .tier first₂ links₂, r₁, r₂, h, h₁, h₂ => by
    simp only [Tier.tokens, List.append_assoc] at h
    obtain ⟨rfl, hlinks⟩ := Tier.unique first₁ first₂ h (links₁.loose h₁) (links₂.loose h₂)
    obtain ⟨rfl, hrest⟩ := Links.unique links₁ links₂ hlinks h₁ h₂
    exact ⟨rfl, hrest⟩
termination_by structural _ d₁ => d₁

lemma Links.unique : ∀ {n : Nat} (d₁ d₂ : Links n) {r₁ r₂ : List Token},
    d₁.tokens ++ r₁ = d₂.tokens ++ r₂ → Loose (n + 1) r₁ → Loose (n + 1) r₂ →
      d₁ = d₂ ∧ r₁ = r₂
  | _, .nil, .nil, _, _, h, _, _ => ⟨rfl, h⟩
  | _, .nil, .cons op atTier sign right rest, r₁, _, h, h₁, _ => by
    obtain rfl : r₁ = _ := h
    cases (Links.cons op atTier sign right rest).tokens_eq_nil h₁
  | _, .cons op atTier sign right rest, .nil, _, r₂, h, _, h₂ => by
    obtain rfl : r₂ = _ := h.symm
    cases (Links.cons op atTier sign right rest).tokens_eq_nil h₂
  | _, .cons op₁ atTier₁ sign₁ right₁ rest₁, .cons op₂ atTier₂ sign₂ right₂ rest₂, r₁, r₂, h,
      h₁, h₂ => by
    simp only [Links.tokens, List.cons_append, List.append_assoc, List.cons.injEq] at h
    obtain rfl : op₁ = op₂ := by
      have hkind : op₁.token = op₂.token := by rw [← sign₁.2, ← sign₂.2, h.1]
      rw [← Option.some.injEq, ← BinOp.ofToken?_token op₁, hkind, BinOp.ofToken?_token]
    obtain rfl := word_eq h.1
    obtain ⟨rfl, hlinks⟩ := Tier.unique right₁ right₂ h.2 (rest₁.loose h₁) (rest₂.loose h₂)
    obtain ⟨rfl, hrest⟩ := Links.unique rest₁ rest₂ hlinks h₁ h₂
    exact ⟨rfl, hrest⟩
termination_by structural _ d₁ => d₁

lemma Factor.unique : ∀ (d₁ d₂ : Factor) {r₁ r₂ : List Token},
    d₁.tokens ++ r₁ = d₂.tokens ++ r₂ → d₁ = d₂ ∧ r₁ = r₂
  | .signed op₁ sign₁ operand₁, .signed op₂ sign₂ operand₂, _, _, h => by
    simp only [Factor.tokens, List.cons_append, List.cons.injEq] at h
    obtain rfl : op₁ = op₂ := by
      have hkind : op₁.token = op₂.token := by rw [← sign₁.2, ← sign₂.2, h.1]
      revert hkind
      cases op₁ <;> cases op₂ <;> decide
    obtain rfl := word_eq h.1
    obtain ⟨rfl, hrest⟩ := Factor.unique operand₁ operand₂ h.2
    exact ⟨rfl, hrest⟩
  | .signed op sign operand, .primary p, _, _, h => by
    exact absurd h (Factor.signed_ne sign operand p)
  | .primary p, .signed op sign operand, _, _, h => by
    exact absurd h.symm (Factor.signed_ne sign operand p)
  | .primary p₁, .primary p₂, _, _, h => by
    obtain ⟨rfl, hrest⟩ := Primary.unique p₁ p₂ h
    exact ⟨rfl, hrest⟩
termination_by structural d₁ => d₁

lemma Primary.unique (d₁ d₂ : Primary) {r₁ r₂ : List Token}
    (h : d₁.tokens ++ r₁ = d₂.tokens ++ r₂) : d₁ = d₂ ∧ r₁ = r₂ := by
  have hstarts := Primary.starts_eq d₁ d₂ h
  cases d₁ with
  | literal word₁ =>
    cases d₂ with
    | literal word₂ =>
      obtain ⟨hword, hrest⟩ := List.cons.inj h
      exact ⟨congrArg Primary.literal (Subtype.ext hword), hrest⟩
    | name _ | parens _ _ _ | block _ => cases hstarts
  | name word₁ =>
    cases d₂ with
    | name word₂ =>
      obtain ⟨hword, hrest⟩ := List.cons.inj h
      exact ⟨congrArg Primary.name (word_eq hword), hrest⟩
    | literal _ | parens _ _ _ | block _ => cases hstarts
  | parens opening₁ inner₁ closing₁ =>
    cases d₂ with
    | parens opening₂ inner₂ closing₂ =>
      simp only [Primary.tokens, List.cons_append, List.append_assoc, List.cons.injEq] at h
      obtain ⟨rfl, rfl, hrest⟩ := Tier.closed_unique (Tier.unique inner₁ inner₂) rfl h.2
      exact ⟨by rw [word_eq h.1], hrest⟩
    | literal _ | name _ | block _ => cases hstarts
  | block block₁ =>
    cases d₂ with
    | block block₂ =>
      obtain ⟨rfl, hrest⟩ := Block.unique block₁ block₂ h
      exact ⟨rfl, hrest⟩
    | literal _ | name _ | parens _ _ _ => cases hstarts
termination_by structural d₁

lemma Block.unique : ∀ (d₁ d₂ : Block) {r₁ r₂ : List Token},
    d₁.tokens ++ r₁ = d₂.tokens ++ r₂ → d₁ = d₂ ∧ r₁ = r₂
  | .braces opening₁ body₁ closing₁, .braces opening₂ body₂ closing₂, _, _, h => by
    simp only [Block.tokens, List.cons_append, List.append_assoc, List.cons.injEq] at h
    obtain ⟨rfl, hclosing⟩ := Statements.unique body₁ body₂ h.2
      (avoids_word closing₁ (by decide)) (avoids_word closing₂ (by decide))
    obtain ⟨hword, hrest⟩ := List.cons.inj hclosing
    exact ⟨by rw [word_eq h.1, word_eq hword], hrest⟩
termination_by structural d₁ => d₁

/-- One list of statements begins an input, if neither another statement nor an `else` follows
it. -/
lemma Statements.unique : ∀ (d₁ d₂ : Statements) {r₁ r₂ : List Token},
    d₁.tokens ++ r₁ = d₂.tokens ++ r₂ → Avoids (.kwElse :: statementStarts) r₁ →
      Avoids (.kwElse :: statementStarts) r₂ → d₁ = d₂ ∧ r₁ = r₂
  | .nil, .nil, _, _, h, _, _ => ⟨rfl, h⟩
  | .nil, .cons first rest, r₁, r₂, h, h₁, _ => by
    obtain ⟨token, _, heq, hkind⟩ := (first.startsIn.append rest.tokens).append r₂
    exact absurd (List.mem_cons_of_mem _ hkind) (h₁ token _ (h.trans heq))
  | .cons first rest, .nil, r₁, r₂, h, _, h₂ => by
    obtain ⟨token, _, heq, hkind⟩ := (first.startsIn.append rest.tokens).append r₁
    exact absurd (List.mem_cons_of_mem _ hkind) (h₂ token _ (h.symm.trans heq))
  | .cons first₁ rest₁, .cons first₂ rest₂, r₁, r₂, h, h₁, h₂ => by
    simp only [Statements.tokens, List.append_assoc] at h
    obtain ⟨rfl, hbehind⟩ := Statement.unique first₁ first₂ h (rest₁.avoids_else h₁)
      (rest₂.avoids_else h₂)
    obtain ⟨rfl, hrest⟩ := Statements.unique rest₁ rest₂ hbehind h₁ h₂
    exact ⟨rfl, hrest⟩
termination_by structural d₁ => d₁

/-- One statement begins an input, if no `else` follows it. -/
lemma Statement.unique (d₁ d₂ : Statement) {r₁ r₂ : List Token}
    (h : d₁.tokens ++ r₁ = d₂.tokens ++ r₂) (h₁ : Avoids [.kwElse] r₁)
    (h₂ : Avoids [.kwElse] r₂) : d₁ = d₂ ∧ r₁ = r₂ := by
  have hstarts := Statement.starts_eq d₁ d₂ h
  cases d₁ with
  | print keyword₁ value₁ semi₁ =>
    cases d₂ with
    | print keyword₂ value₂ semi₂ =>
      simp only [Statement.tokens, List.cons_append, List.append_assoc, List.cons.injEq] at h
      obtain ⟨rfl, rfl, hrest⟩ := Tier.closed_unique (Tier.unique value₁ value₂) rfl h.2
      exact ⟨by rw [word_eq h.1], hrest⟩
    | _ => cases hstarts
  | varDef keyword₁ name₁ ty₁ sign₁ value₁ semi₁ =>
    cases d₂ with
    | varDef keyword₂ name₂ ty₂ sign₂ value₂ semi₂ =>
      simp only [Statement.tokens, List.cons_append, List.append_assoc, List.cons.injEq] at h
      obtain ⟨rfl, hsign⟩ := optionalTokens_unique (avoids_word sign₁ (by decide))
        (avoids_word sign₂ (by decide)) h.2.2
      simp only [List.cons.injEq] at hsign
      obtain ⟨rfl, rfl, hrest⟩ := Tier.closed_unique (Tier.unique value₁ value₂) rfl hsign.2
      exact ⟨by rw [word_eq h.1, word_eq h.2.1, word_eq hsign.1], hrest⟩
    | varDecl keyword₂ name₂ ty₂ semi₂ =>
      -- Only what stands behind the type tells the two kinds of definition apart.
      simp only [Statement.tokens, List.cons_append, List.append_assoc, List.cons.injEq] at h
      obtain ⟨_, hsign⟩ := optionalTokens_unique (avoids_word sign₁ (by decide))
        (avoids_word semi₂ (by decide)) h.2.2
      exact absurd (List.cons.inj hsign).1 (word_ne (by decide))
    | _ => cases hstarts
  | varDecl keyword₁ name₁ ty₁ semi₁ =>
    cases d₂ with
    | varDef keyword₂ name₂ ty₂ sign₂ value₂ semi₂ =>
      simp only [Statement.tokens, List.cons_append, List.append_assoc, List.cons.injEq] at h
      obtain ⟨_, hsign⟩ := optionalTokens_unique (avoids_word semi₁ (by decide))
        (avoids_word sign₂ (by decide)) h.2.2
      exact absurd (List.cons.inj hsign).1 (word_ne (by decide))
    | varDecl keyword₂ name₂ ty₂ semi₂ =>
      simp only [Statement.tokens, List.cons_append, List.append_assoc, List.cons.injEq] at h
      obtain ⟨rfl, hsemi⟩ := optionalTokens_unique (avoids_word semi₁ (by decide))
        (avoids_word semi₂ (by decide)) h.2.2
      obtain ⟨hword, hrest⟩ := List.cons.inj hsemi
      exact ⟨by rw [word_eq h.1, word_eq h.2.1, word_eq hword], hrest⟩
    | _ => cases hstarts
  | constDef keyword₁ name₁ ty₁ sign₁ value₁ semi₁ =>
    cases d₂ with
    | constDef keyword₂ name₂ ty₂ sign₂ value₂ semi₂ =>
      simp only [Statement.tokens, List.cons_append, List.append_assoc, List.cons.injEq] at h
      obtain ⟨rfl, hsign⟩ := optionalTokens_unique (avoids_word sign₁ (by decide))
        (avoids_word sign₂ (by decide)) h.2.2
      simp only [List.cons.injEq] at hsign
      obtain ⟨rfl, hsemi⟩ := Wrapped.unique (fun _ _ => Subtype.ext) literalWord_ne_lparen value₁
        value₂ hsign.2
      obtain ⟨hword, hrest⟩ := List.cons.inj hsemi
      exact ⟨by rw [word_eq h.1, word_eq h.2.1, word_eq hsign.1, word_eq hword], hrest⟩
    | _ => cases hstarts
  | assign target₁ sign₁ value₁ semi₁ =>
    cases d₂ with
    | assign target₂ sign₂ value₂ semi₂ =>
      simp only [Statement.tokens, List.append_assoc, List.cons_append] at h
      obtain ⟨rfl, hsign⟩ := Wrapped.unique (fun _ _ => Subtype.ext) name_ne_lparen target₁
        target₂ h
      simp only [List.cons.injEq] at hsign
      obtain ⟨rfl, rfl, hrest⟩ := Tier.closed_unique (Tier.unique value₁ value₂) rfl hsign.2
      exact ⟨by rw [word_eq hsign.1], hrest⟩
    | expr value₂ semi₂ =>
      -- The target is an expression too, but no expression goes on with `=`.
      simp only [Statement.tokens, List.append_assoc, List.cons_append] at h
      have hsign := target₁.rest_eq value₂ h (loose_word sign₁ (by decide))
      exact absurd (List.cons.inj hsign).1 (word_ne (by decide))
    | _ => cases hstarts
  | ifThen keyword₁ test₁ then₁ =>
    cases d₂ with
    | ifThen keyword₂ test₂ then₂ =>
      simp only [Statement.tokens, List.cons_append, List.append_assoc, List.cons.injEq] at h
      obtain ⟨rfl, hthen⟩ := Tier.unique test₁ test₂ h.2 (then₁.loose _) (then₂.loose _)
      obtain ⟨rfl, hrest⟩ := Block.unique then₁ then₂ hthen
      exact ⟨by rw [word_eq h.1], hrest⟩
    | ifElse keyword₂ test₂ then₂ otherwise₂ else₂ =>
      simp only [Statement.tokens, List.cons_append, List.append_assoc, List.cons.injEq] at h
      obtain ⟨rfl, hthen⟩ := Tier.unique test₁ test₂ h.2 (then₁.loose _) (then₂.loose _)
      obtain ⟨_, hrest⟩ := Block.unique then₁ then₂ hthen
      exact absurd (by simp [otherwise₂.2]) (h₁ _ _ hrest)
    | _ => cases hstarts
  | ifElse keyword₁ test₁ then₁ otherwise₁ else₁ =>
    cases d₂ with
    | ifThen keyword₂ test₂ then₂ =>
      simp only [Statement.tokens, List.cons_append, List.append_assoc, List.cons.injEq] at h
      obtain ⟨rfl, hthen⟩ := Tier.unique test₁ test₂ h.2 (then₁.loose _) (then₂.loose _)
      obtain ⟨_, hrest⟩ := Block.unique then₁ then₂ hthen
      exact absurd (by simp [otherwise₁.2]) (h₂ _ _ hrest.symm)
    | ifElse keyword₂ test₂ then₂ otherwise₂ else₂ =>
      simp only [Statement.tokens, List.cons_append, List.append_assoc, List.cons.injEq] at h
      obtain ⟨rfl, hthen⟩ := Tier.unique test₁ test₂ h.2 (then₁.loose _) (then₂.loose _)
      obtain ⟨rfl, hotherwise⟩ := Block.unique then₁ then₂ hthen
      simp only [List.cons.injEq] at hotherwise
      obtain ⟨rfl, hrest⟩ := Block.unique else₁ else₂ hotherwise.2
      exact ⟨by rw [word_eq h.1, word_eq hotherwise.1], hrest⟩
    | _ => cases hstarts
  | whileLoop keyword₁ test₁ body₁ =>
    cases d₂ with
    | whileLoop keyword₂ test₂ body₂ =>
      simp only [Statement.tokens, List.cons_append, List.append_assoc, List.cons.injEq] at h
      obtain ⟨rfl, hbody⟩ := Tier.unique test₁ test₂ h.2 (body₁.loose _) (body₂.loose _)
      obtain ⟨rfl, hrest⟩ := Block.unique body₁ body₂ hbody
      exact ⟨by rw [word_eq h.1], hrest⟩
    | _ => cases hstarts
  | breakLoop keyword₁ semi₁ =>
    cases d₂ with
    | breakLoop keyword₂ semi₂ =>
      simp only [Statement.tokens, List.cons_append, List.cons.injEq] at h
      exact ⟨by rw [word_eq h.1, word_eq h.2.1], h.2.2⟩
    | _ => cases hstarts
  | continueLoop keyword₁ semi₁ =>
    cases d₂ with
    | continueLoop keyword₂ semi₂ =>
      simp only [Statement.tokens, List.cons_append, List.cons.injEq] at h
      exact ⟨by rw [word_eq h.1, word_eq h.2.1], h.2.2⟩
    | _ => cases hstarts
  | expr value₁ semi₁ =>
    cases d₂ with
    | assign target₂ sign₂ value₂ semi₂ =>
      simp only [Statement.tokens, List.append_assoc, List.cons_append] at h
      have hsign := target₂.rest_eq value₁ h.symm (loose_word sign₂ (by decide))
      exact absurd (List.cons.inj hsign).1 (word_ne (by decide))
    | expr value₂ semi₂ =>
      simp only [Statement.tokens, List.append_assoc, List.cons_append] at h
      obtain ⟨rfl, rfl, hrest⟩ := Tier.closed_unique (Tier.unique value₁ value₂) rfl h
      exact ⟨rfl, hrest⟩
    | _ => cases hstarts
termination_by structural d₁

end

/-- Different derivations of a program have different texts. -/
theorem Statements.eq_of_tokens_eq {d₁ d₂ : Statements} (h : d₁.tokens = d₂.tokens) :
    d₁ = d₂ := by
  have hnone : Avoids (.kwElse :: statementStarts) [] := by
    intro token rest heq
    cases heq
  have hnil : d₁.tokens ++ [] = d₂.tokens ++ [] := by rw [h]
  exact (Statements.unique d₁ d₂ hnil hnone hnone).1

end BlockLang.Grammar
