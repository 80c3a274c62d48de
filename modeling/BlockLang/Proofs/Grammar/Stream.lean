import BlockLang.Proofs.Grammar.Derivation

/-!
# Parsers in front of tokens

`Parser.before ts q` is the parser that has the tokens `ts` in front of it and is `q` behind them.
With it each step of reading is an equation in both directions:

* from what is there to what is read: `run_advance_before`, `run_expect_before` and so on say what
  a step makes of a parser in front of the right token;
* from what was read to what was there: `before_of_advance`, `before_of_expect` and so on say that
  a parser from which a step has succeeded was in front of the right token.

The second direction needs that the end of the input is the last item and stands nowhere else
(`Parser.Ends`), because a parser never goes past it.
-/

namespace BlockLang

namespace Attempt

variable {σ ε α β : Type}

/-- An activity that is done has been done step by step. -/
lemma run_bind_eq_done {x : Attempt σ ε α} {f : α → Attempt σ ε β} {s s'' : σ} {b : β} :
    (x >>= f).run s = (.done b, s'') ↔
      ∃ a s', x.run s = (.done a, s') ∧ (f a).run s' = (.done b, s'') := by
  rw [run_bind]
  generalize x.run s = ending
  obtain ⟨outcome, s'⟩ := ending
  cases outcome <;> simp

@[simp] lemma run_pure_eq_done {value b : α} {s s' : σ} :
    (pure value : Attempt σ ε α).run s = (.done b, s') ↔ b = value ∧ s' = s := by
  simp [eq_comm]

@[simp] lemma run_stop_ne_done {s s' : σ} {b : α} :
    (stop : Attempt σ ε α).run s ≠ (.done b, s') := by
  simp

end Attempt

/-- A token can be read, in case it stands for a value. -/
def Token.HasValue (token : Token) : Prop :=
  ∃ value, Parser.literalOf token = .ok value

/-- Tokens that can be read, as far as they stand for values. -/
def Grammar.Legible (ts : List Token) : Prop :=
  ∀ token ∈ ts, token.HasValue

@[simp] lemma Grammar.legible_nil : Legible [] :=
  List.forall_mem_nil _

@[simp] lemma Grammar.legible_cons {token : Token} {ts : List Token} :
    Legible (token :: ts) ↔ token.HasValue ∧ Legible ts :=
  List.forall_mem_cons

@[simp] lemma Grammar.legible_append {ts ts' : List Token} :
    Legible (ts ++ ts') ↔ Legible ts ∧ Legible ts' :=
  List.forall_mem_append

namespace Parser

open Grammar

variable {p p' q : Parser} {token : Token} {ts ts' : List Token} {kind : TokenKind}

/-! ## What is in front of a parser -/

/-- The current token and the items behind it. -/
def items (p : Parser) : List (Except Fault Token) :=
  .ok p.current :: p.pending

/-- The parser that has tokens in front of it and is `q` behind them. -/
def before (ts : List Token) (q : Parser) : Parser :=
  match ts with
  | [] => q
  | token :: ts => ⟨token, ts.map .ok ++ q.items⟩

@[simp] lemma before_nil : before [] q = q :=
  rfl

@[simp] lemma current_before_cons : (before (token :: ts) q).current = token :=
  rfl

lemma items_before : (before ts q).items = ts.map .ok ++ q.items := by
  cases ts <;> rfl

lemma items_injective (h : p.items = q.items) : p = q := by
  cases p
  cases q
  simpa [items] using h

lemma before_append : before (ts ++ ts') q = before ts (before ts' q) := by
  refine items_injective ?_
  simp [items_before]

/-- The end of the input comes last, and so does a fault. -/
inductive EndsWith : List (Except Fault Token) → Prop
  | endOfInput {token : Token} (last : token.kind = .endOfInput) : EndsWith [.ok token]
  | fault (fault : Fault) : EndsWith [.error fault]
  | token {token : Token} {items : List (Except Fault Token)} (inner : token.kind ≠ .endOfInput)
      (rest : EndsWith items) : EndsWith (.ok token :: items)

/-- In front of a parser the end of the input comes last. -/
def Ends (p : Parser) : Prop :=
  EndsWith p.items

lemma Ends.behind {ts : List Token} (h : (before ts q).Ends) : q.Ends := by
  induction ts with
  | nil => exact h
  | cons token ts ih =>
    refine ih ?_
    rw [Ends, items_before, List.map_cons, List.cons_append, ← items_before] at h
    cases h with
    | token _ rest => exact rest

/-! ## Literals -/

/-- Only numbers and characters can lack a value. -/
lemma hasValue_word (word : Word kind) (h : kind ∉ [TokenKind.integer, .float, .char]) :
    word.1.HasValue := by
  obtain ⟨⟨_, text, line⟩, rfl⟩ := word
  simp only [List.mem_cons, List.not_mem_nil, or_false, not_or] at h
  obtain ⟨hinteger, hfloat, hchar⟩ := h
  rw [Token.HasValue, literalOf]
  split
  · contradiction
  · contradiction
  · contradiction
  · exact ⟨_, rfl⟩

lemma legible_optionalTokens (word : Option (Word .name)) : Legible (optionalTokens word) := by
  cases word with
  | none => exact legible_nil
  | some word => exact legible_cons.mpr ⟨hasValue_word word (by decide), legible_nil⟩

/-- The value of a literal that has one. -/
lemma literalOf_of_hasValue (word : LiteralWord) (h : word.1.HasValue) :
    literalOf word.1 = .ok (literalValue word) := by
  obtain ⟨value, hvalue⟩ := h
  obtain ⟨⟨kind, text, line⟩, hkind⟩ := word
  simp only [List.mem_cons, List.not_mem_nil, or_false] at hkind
  obtain rfl | rfl | rfl | rfl | rfl := hkind
  · simp only [literalOf] at hvalue
    split at hvalue
    · simpa [literalOf, literalValue] using ‹_›
    · cases hvalue
  · simp only [literalOf] at hvalue
    split at hvalue
    · next heq => simp [literalOf, literalValue, heq]
    · cases hvalue
  · simp only [literalOf] at hvalue
    split at hvalue
    · next heq => simp [literalOf, literalValue, heq]
    · cases hvalue
  · rfl
  · rfl

/-! ## Single steps, from what is there -/

@[simp] lemma run_kind : Parser.kind.run p = (.done p.current.kind, p) :=
  rfl

lemma run_advance_before (h : token.kind ≠ .endOfInput) :
    advance.run (before (token :: ts) q) = (.done token, before ts q) := by
  rw [Attempt.run, advance, current_before_cons, if_neg h]
  cases ts <;> rfl

lemma run_advance_word (word : Word kind) (h : kind ≠ .endOfInput) :
    advance.run (before (word.1 :: ts) q) = (.done word.1, before ts q) :=
  run_advance_before (by rwa [word.2])

lemma run_expect_before (word : Word kind) (h : kind ≠ .endOfInput) :
    (expect kind).run (before (word.1 :: ts) q) = (.done word.1, before ts q) := by
  rw [expect, Attempt.run_bind, run_kind, current_before_cons]
  simp only [word.2, if_pos]
  exact run_advance_word word h

lemma run_identifier_before (word : Word .name) :
    identifier.run (before (word.1 :: ts) q) = (.done (ident word), before ts q) := by
  rw [identifier, Attempt.run_bind, run_expect_before word (by decide)]
  rfl

lemma run_identifier?_before {word : Option (Word .name)} (h : q.current.kind ≠ .name) :
    identifier?.run (before (optionalTokens word) q) = (.done (word.map ident), q) := by
  rw [identifier?, Attempt.run_bind, run_kind]
  cases word with
  | none => simp [optionalTokens, h]
  | some word =>
    have htokens : optionalTokens (some word) = [word.1] := rfl
    simp only [htokens, current_before_cons, word.2, if_pos]
    rw [Attempt.run_bind, run_identifier_before]
    rfl

/-- A literal is read from a token that has a value. -/
lemma run_literal_before {word : LiteralWord} (h : word.1.HasValue) :
    literal.run (before (word.1 :: ts) q) =
      (.done (.literal (literalValue word)), before ts q) := by
  have hkind : word.1.kind ≠ .endOfInput := by
    intro heq
    simpa [heq] using word.2
  rw [literal, Attempt.run_bind, run_advance_before hkind]
  simp only [Attempt.run, literalOf_of_hasValue word h]
  rfl

/-! ## Single steps, from what was read -/

/-- A step from the end of the input stays there, so the token has to be another one. -/
lemma before_of_advance (hp : p.Ends) (hkind : p.current.kind ≠ .endOfInput)
    (h : advance.run p = (.done token, p')) : token = p.current ∧ p = before [token] p' := by
  obtain ⟨current, pending⟩ := p
  rw [Attempt.run, advance, if_neg hkind] at h
  cases hp with
  | endOfInput last => exact absurd last hkind
  | token _ rest =>
    cases rest with
    | endOfInput _ =>
      cases h
      exact ⟨rfl, rfl⟩
    | fault _ => cases h
    | token _ _ =>
      cases h
      exact ⟨rfl, rfl⟩

lemma before_of_advance_word (hp : p.Ends) (hkind : p.current.kind = kind)
    (hinner : kind ≠ .endOfInput) (h : advance.run p = (.done token, p')) :
    ∃ word : Word kind, word.1 = token ∧ p = before [word.1] p' := by
  obtain ⟨rfl, hbefore⟩ := before_of_advance hp (hkind ▸ hinner) h
  exact ⟨⟨p.current, hkind⟩, rfl, hbefore⟩

lemma before_of_expect (hp : p.Ends) (hkind : kind ≠ .endOfInput)
    (h : (expect kind).run p = (.done token, p')) :
    ∃ word : Word kind, word.1 = token ∧ p = before [word.1] p' := by
  rw [expect, Attempt.run_bind_eq_done] at h
  obtain ⟨_, _, hnext, h⟩ := h
  cases hnext
  split at h
  · next heq => exact before_of_advance_word hp heq hkind h
  · cases h

lemma before_of_identifier {name : Ident} (hp : p.Ends)
    (h : identifier.run p = (.done name, p')) :
    ∃ word : Word .name, ident word = name ∧ p = before [word.1] p' := by
  rw [identifier, Attempt.run_bind_eq_done] at h
  obtain ⟨token, _, hexpect, h⟩ := h
  obtain ⟨word, rfl, rfl⟩ := before_of_expect hp (by decide) hexpect
  cases h
  exact ⟨word, rfl, rfl⟩

lemma before_of_identifier? {name : Option Ident} (hp : p.Ends)
    (h : identifier?.run p = (.done name, p')) :
    ∃ word : Option (Word .name), word.map ident = name ∧ p = before (optionalTokens word) p' := by
  rw [identifier?, Attempt.run_bind_eq_done] at h
  obtain ⟨_, _, hnext, h⟩ := h
  cases hnext
  split at h
  · rw [Attempt.run_bind_eq_done] at h
    obtain ⟨name, _, hident, h⟩ := h
    obtain ⟨word, rfl, rfl⟩ := before_of_identifier hp hident
    cases h
    exact ⟨some word, rfl, rfl⟩
  · cases h
    exact ⟨none, rfl, rfl⟩

lemma before_of_literal {e : Expr} (hp : p.Ends)
    (hkind : p.current.kind ∈ [TokenKind.integer, .float, .char, .kwTrue, .kwFalse])
    (h : literal.run p = (.done e, p')) :
    ∃ word : LiteralWord, e = .literal (literalValue word) ∧ word.1.HasValue ∧
      p = before [word.1] p' := by
  rw [literal, Attempt.run_bind_eq_done] at h
  obtain ⟨token, _, hadvance, h⟩ := h
  have hinner : p.current.kind ≠ .endOfInput := by
    intro heq
    simp [heq] at hkind
  obtain ⟨rfl, hbefore⟩ := before_of_advance hp hinner hadvance
  rw [Attempt.run_bind_eq_done] at h
  obtain ⟨value, _, hvalue, h⟩ := h
  cases h
  cases hliteral : literalOf p.current with
  | error fault =>
    rw [hliteral] at hvalue
    cases hvalue
  | ok value' =>
    rw [hliteral] at hvalue
    cases hvalue
    have hhas : p.current.HasValue := ⟨_, hliteral⟩
    have hsame := literalOf_of_hasValue ⟨p.current, hkind⟩ hhas
    rw [hliteral] at hsame
    obtain rfl := Except.ok.inj hsame
    exact ⟨⟨p.current, hkind⟩, rfl, hhas, hbefore⟩

end Parser

end BlockLang
