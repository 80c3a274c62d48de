import BlockLang.Proofs.Decimal.ReadBack
import BlockLang.Proofs.Grammar.Parsing

/-!
# What is parsed can be written

The tree of a derivation is made of the texts of its tokens, and a lexer gives only tokens with
texts such as their kinds ask for.  Names therefore are names, and literals have no sign: the
digits of an integer denote a number below `2 ^ 63`, and digits with a point between them a float
without a sign, which is infinite if there are too many of them.

So whatever is parsed is spelled (`Source.spelled_of_parse`), and it is well formed if its floats
fit.
-/

namespace BlockLang

namespace Grammar

/-! ## Words -/

/-- Tokens with texts such as their kinds ask for, and with values as far as they stand for
some. -/
def Sound (ts : List Token) : Prop :=
  ∀ token ∈ ts, token.WellSpelled ∧ token.HasValue

@[simp] lemma sound_cons {token : Token} {ts : List Token} :
    Sound (token :: ts) ↔ (token.WellSpelled ∧ token.HasValue) ∧ Sound ts :=
  List.forall_mem_cons

@[simp] lemma sound_append {ts ts' : List Token} : Sound (ts ++ ts') ↔ Sound ts ∧ Sound ts' :=
  List.forall_mem_append

lemma isName_ident {word : Word .name} (h : word.1.WellSpelled) : (ident word).IsName :=
  h.isName word.2

lemma isName_of_optionalTokens {word : Option (Word .name)} (h : Sound (optionalTokens word)) :
    ∀ name ∈ word.map ident, name.IsName := by
  intro name hname
  cases word with
  | none => cases hname
  | some word =>
    cases hname
    exact isName_ident (h word.1 (List.mem_singleton_self _)).1

/-- What a token stands for has no sign. -/
lemma isUnsigned_literalValue {word : LiteralWord} (h : word.1.WellSpelled)
    (hvalue : word.1.HasValue) : (literalValue word).IsUnsigned := by
  obtain ⟨⟨kind, text, line⟩, hkind⟩ := word
  simp only [List.mem_cons, List.not_mem_nil, or_false] at hkind
  obtain rfl | rfl | rfl | rfl | rfl := hkind
  · have hlimit : Decimal.ofDigits text.toList < 2 ^ 63 := (h.inner.hasValue_iff.mp hvalue).1 rfl
    change 0 ≤ (Int64.ofNat (Decimal.ofDigits text.toList)).toInt
    rw [Int64.toInt_ofNat_of_lt hlimit]
    exact Int.natCast_nonneg _
  · obtain ⟨whole, fraction, rfl, hne, hwhole, hfraction⟩ := h.isPointed rfl
    have hread := Decimal.ofText?_pointed hne hwhole hfraction
    change (Decimal.Parts.ofFloat ((Decimal.ofText? _).getD 0)).IsUnsigned
    rw [hread]
    exact Decimal.isUnsigned_ofText? hne hwhole hfraction hread
  · trivial
  · trivial
  · trivial

/-- Parentheses around a word change nothing. -/
lemma Wrapped.sound_word {α : Type} {text : α → Token} : ∀ d : Wrapped α,
    Sound (d.tokens text) → (text d.word).WellSpelled ∧ (text d.word).HasValue
  | .bare _, h => h _ (List.mem_singleton_self _)
  | .parens _ inner _, h => by
    simp only [Wrapped.tokens, sound_cons, sound_append] at h
    exact inner.sound_word h.2.1

/-! ## Trees -/

mutual

theorem Tier.spelled : ∀ {n : Nat} {d : Tier n}, Sound d.tokens → d.tree.Everywhere .declared →
    d.tree.Everywhere .spelled
  | _, .factor _, h, declared => Factor.spelled h declared
  | _, .tier first links, h, declared => by
    simp only [Tier.tokens, sound_append] at h
    rw [Tier.tree] at declared ⊢
    exact links.spelled h.2 declared (Tier.spelled h.1 (links.everywhere_left declared))

theorem Links.spelled : ∀ {n : Nat} (d : Links n) {left : Expr}, Sound d.tokens →
    (d.tree left).Everywhere .declared → left.Everywhere .spelled →
    (d.tree left).Everywhere .spelled
  | _, .nil, _, _, _, hleft => hleft
  | _, .cons _ _ _ right rest, _, h, declared, hleft => by
    simp only [Links.tokens, sound_cons, sound_append] at h
    rw [Links.tree] at declared ⊢
    have hright : right.tree.Everywhere .spelled :=
      Tier.spelled h.2.1 (rest.everywhere_left declared).2.2
    exact rest.spelled h.2.2 declared ⟨trivial, hleft, hright⟩

theorem Factor.spelled : ∀ {d : Factor}, Sound d.tokens → d.tree.Everywhere .declared →
    d.tree.Everywhere .spelled
  | .signed _ _ _, h, declared => by
    simp only [Factor.tokens, sound_cons] at h
    exact ⟨trivial, Factor.spelled h.2 declared.2⟩
  | .primary _, h, declared => Primary.spelled h declared

theorem Primary.spelled : ∀ {d : Primary}, Sound d.tokens → d.tree.Everywhere .declared →
    d.tree.Everywhere .spelled
  | .literal word, h, _ => by
    obtain ⟨hspelled, hvalue⟩ := h word.1 (List.mem_singleton_self _)
    exact isUnsigned_literalValue hspelled hvalue
  | .name word, h, _ => isName_ident (h word.1 (List.mem_singleton_self _)).1
  | .parens _ _ _, h, declared => by
    simp only [Primary.tokens, sound_cons, sound_append] at h
    exact Tier.spelled h.2.1 declared
  | .block _, h, declared => ⟨trivial, Block.spelled h declared.2⟩

theorem Block.spelled : ∀ {d : Block}, Sound d.tokens → Stmt.AllEverywhere .declared d.body →
    Stmt.AllEverywhere .spelled d.body
  | .braces _ _ _, h, declared => by
    simp only [Block.tokens, sound_cons, sound_append] at h
    exact Statements.spelled h.2.1 declared

theorem Statements.spelled : ∀ {d : Statements}, Sound d.tokens →
    Stmt.AllEverywhere .declared d.tree → Stmt.AllEverywhere .spelled d.tree
  | .nil, _, _ => trivial
  | .cons _ _, h, declared => by
    simp only [Statements.tokens, sound_append] at h
    exact ⟨Statement.spelled h.1 declared.1, Statements.spelled h.2 declared.2⟩

theorem Statement.spelled : ∀ {d : Statement}, Sound d.tokens → d.tree.Everywhere .declared →
    d.tree.Everywhere .spelled
  | .print _ _ _, h, declared => by
    simp only [Statement.tokens, sound_cons, sound_append] at h
    exact ⟨trivial, Tier.spelled h.2.1 declared.2⟩
  | .varDef _ _ _ _ _ _, h, declared => by
    simp only [Statement.tokens, sound_cons, sound_append] at h
    obtain ⟨_, ⟨hname, _⟩, hty, _, hvalue, _⟩ := h
    exact ⟨⟨isName_ident hname, isName_of_optionalTokens hty⟩, Tier.spelled hvalue declared.2⟩
  | .varDecl _ _ _ _, h, declared => by
    simp only [Statement.tokens, sound_cons, sound_append] at h
    obtain ⟨_, ⟨hname, _⟩, hty, _⟩ := h
    exact ⟨isName_ident hname, isName_of_optionalTokens hty, declared⟩
  | .constDef _ _ _ _ value _, h, _ => by
    simp only [Statement.tokens, sound_cons, sound_append] at h
    obtain ⟨_, ⟨hname, _⟩, hty, _, hvalue, _⟩ := h
    obtain ⟨hspelled, hvalue⟩ := value.sound_word hvalue
    exact ⟨⟨isName_ident hname, isName_of_optionalTokens hty, _, rfl⟩,
      isUnsigned_literalValue hspelled hvalue⟩
  | .assign target _ _ _, h, declared => by
    simp only [Statement.tokens, sound_cons, sound_append] at h
    obtain ⟨htarget, _, hvalue, _⟩ := h
    exact ⟨isName_ident (target.sound_word htarget).1, Tier.spelled hvalue declared.2⟩
  | .ifThen _ _ _, h, declared => by
    simp only [Statement.tokens, sound_cons, sound_append] at h
    exact ⟨trivial, Tier.spelled h.2.1 declared.2.1, Block.spelled h.2.2 declared.2.2.1, trivial⟩
  | .ifElse _ _ _ _ _, h, declared => by
    simp only [Statement.tokens, sound_cons, sound_append] at h
    obtain ⟨_, htest, hthen, _, helse⟩ := h
    exact ⟨trivial, Tier.spelled htest declared.2.1, Block.spelled hthen declared.2.2.1,
      Block.spelled helse declared.2.2.2⟩
  | .whileLoop _ _ _, h, declared => by
    simp only [Statement.tokens, sound_cons, sound_append] at h
    exact ⟨trivial, Tier.spelled h.2.1 declared.2.1, Block.spelled h.2.2 declared.2.2⟩
  | .breakLoop _ _, _, _ => trivial
  | .continueLoop _ _, _, _ => trivial
  | .expr _ _, h, declared => by
    simp only [Statement.tokens, sound_append] at h
    exact ⟨trivial, Tier.spelled h.1 declared.2⟩

end

end Grammar

/-- What is parsed can be written, except that its floats may be infinite. -/
theorem Source.spelled_of_parse {source : String} {program : Program}
    (h : parse source = .done program) : program.Spelled := by
  obtain ⟨d, line, htokens, _, legible, declared, rfl⟩ := derivation_of_parse h
  have hspelled := wellSpelled_of_tokens htokens
  exact Grammar.Statements.spelled (fun token hmem => ⟨hspelled token hmem, legible token hmem⟩)
    declared

end BlockLang
