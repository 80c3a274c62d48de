import BlockLang.Proofs.Grammar.Stream
import BlockLang.Proofs.Token.Matching
import BlockLang.Source

/-!
# Parsers in front of whole texts

What a lexer makes of a text is a number of tokens and then the end of the input or a fault
(`Cursor.drainWithin_items`).  A parser for the text therefore is in front of these tokens and has
the end of the input or the fault behind them (`Parser.ofLexer_ofString`).

The tokens in front of the end are not themselves ends of the input, floats are digits with a
point between them, and names are words that are no keywords (`Token.WellSpelled`).  The text of a
float can therefore be read (`Token.Inner`), so that only integers and characters can lack a value.
-/

namespace BlockLang

variable {token : Token} {line : Nat} {input : List Char} {next : Cursor}

/-! ## What a lexer gives -/

/-- A token that stands in front of the end of the input. -/
def Token.Inner (token : Token) : Prop :=
  token.kind ≠ .endOfInput ∧
    (token.kind = .float → (Decimal.ofText? token.text).isSome = true)

/-- A token in front of the end of the input, with a text such as its kind asks for: a float is
digits with a point between them, and a name is a word that is no keyword. -/
structure Token.WellSpelled (token : Token) : Prop where
  ne_endOfInput : token.kind ≠ .endOfInput
  isPointed : token.kind = .float → Decimal.IsPointed token.text
  isName : token.kind = .name → isWord token.text = true ∧ TokenKind.ofKeyword? token.text = none

namespace Token.WellSpelled

lemma inner (h : token.WellSpelled) : token.Inner := by
  refine ⟨h.ne_endOfInput, fun hfloat => ?_⟩
  obtain ⟨whole, fraction, htext, hne, hwhole, hfraction⟩ := h.isPointed hfloat
  rw [htext, Decimal.ofText?_pointed hne hwhole hfraction]
  rfl

lemma of_matches (h : token.kind.Matches token.text.toList) : token.WellSpelled where
  ne_endOfInput := h.ne_endOfInput
  isPointed hfloat := by
    rw [hfloat] at h
    exact h.isPointed
  isName hname := by
    rw [hname] at h
    exact h.isName

end Token.WellSpelled

namespace Cursor

lemma wellSpelled_of_readToken {cursor : Cursor} (h : cursor.readToken = (.ok token, next)) :
    (∃ line, token = .endOfInput line) ∨ token.WellSpelled :=
  (matches_of_readToken h).imp_right .of_matches

/-- Reading to the end gives tokens and then the end of the input or a fault. -/
lemma drainWithin_items : ∀ (steps : Nat) (cursor : Cursor), cursor.rest.length < steps →
    ∃ ts, (∀ token ∈ ts, token.WellSpelled) ∧
      ((∃ line, (drainWithin steps cursor).tokens = ts ++ [.endOfInput line] ∧
          (drainWithin steps cursor).fault? = none) ∨
        ∃ fault, (drainWithin steps cursor).tokens = ts ∧
          (drainWithin steps cursor).fault? = some fault)
  | 0, _, h => absurd h (Nat.not_lt_zero _)
  | steps + 1, cursor, h => by
    unfold drainWithin
    split
    · next fault next hread => exact ⟨[], List.forall_mem_nil _, .inr ⟨fault, rfl, rfl⟩⟩
    · next token next hread =>
      split
      · next hend =>
        obtain ⟨line, rfl⟩ | hspelled := wellSpelled_of_readToken hread
        · exact ⟨[], List.forall_mem_nil _, .inl ⟨line, rfl, rfl⟩⟩
        · exact absurd hend hspelled.ne_endOfInput
      · next hnot =>
        have hshorter := readToken_length_lt hread hnot
        obtain ⟨ts, hts, hstop⟩ := drainWithin_items steps next (by omega)
        have hspelled : token.WellSpelled := by
          obtain ⟨line, rfl⟩ | hspelled := wellSpelled_of_readToken hread
          · exact absurd rfl hnot
          · exact hspelled
        refine ⟨token :: ts, List.forall_mem_cons.mpr ⟨hspelled, hts⟩, ?_⟩
        obtain ⟨line, htokens, hfault⟩ | ⟨fault, htokens, hfault⟩ := hstop
        · exact .inl ⟨line, by simp only [htokens, List.cons_append], hfault⟩
        · exact .inr ⟨fault, by simp only [htokens], hfault⟩

end Cursor

/-! ## What can be read -/

/-- A token in front of the end has a value, unless it is a number that is too large or a
character that cannot be decoded. -/
lemma Token.Inner.hasValue_iff (h : token.Inner) : token.HasValue ↔
    (token.kind = .integer → Decimal.ofDigits token.text.toList < Nat.pow 2 63) ∧
      (token.kind = .char → (CharConstant.unquote? token.text).isSome = true) := by
  obtain ⟨kind, text, line⟩ := token
  obtain ⟨_, hfloat⟩ := h
  have hlimit : Parser.intLimit = Nat.pow 2 63 := rfl
  rw [HasValue, Parser.literalOf, hlimit]
  dsimp only at hfloat ⊢
  split
  · split <;> simp_all
  · obtain ⟨x, hx⟩ := Option.isSome_iff_exists.mp (hfloat rfl)
    simp [hx]
  · split <;> simp_all
  · simp_all

namespace Parser

open Grammar

variable {ts : List Token} {items : List (Except Fault Token)}

lemma EndsWith.append (hts : ∀ token ∈ ts, token.WellSpelled) (h : EndsWith items) :
    EndsWith (ts.map .ok ++ items) := by
  induction ts with
  | nil => exact h
  | cons token ts ih =>
    obtain ⟨hspelled, hts⟩ := List.forall_mem_cons.mp hts
    exact .token hspelled.ne_endOfInput (ih hts)

/-- At the end of the input nothing is left. -/
lemma Ends.eq_of_endOfInput {p : Parser} (h : p.Ends) (hend : p.current.kind = .endOfInput) :
    p = ⟨p.current, []⟩ := by
  obtain ⟨current, pending⟩ := p
  cases h with
  | endOfInput _ => rfl
  | token inner _ => exact absurd hend inner

/-- The parser for a text is in front of the tokens of the text and of the end of the input, or
of the tokens up to a fault. -/
lemma ofLexer_ofString (source : String) : ∃ ts : List Token,
    (∀ token ∈ ts, token.WellSpelled) ∧
    ((∃ line, Source.tokens source = .ok (ts ++ [.endOfInput line]) ∧
        Parser.ofLexer (.ofString source) = .ok (before ts ⟨.endOfInput line, []⟩)) ∨
      ∃ fault, Source.tokens source = .error fault ∧
        ∀ p, Parser.ofLexer (.ofString source) = .ok p →
          p.items = ts.map .ok ++ [.error fault]) := by
  have hlength : (Cursor.ofString source).rest.length < (Cursor.ofString source).rest.length + 1 :=
    Nat.lt_succ_self _
  obtain ⟨ts, hts, hstop⟩ := Cursor.drainWithin_items _ _ hlength
  refine ⟨ts, hts, ?_⟩
  obtain ⟨line, htokens, hfault⟩ | ⟨fault, htokens, hfault⟩ := hstop
  · refine .inl ⟨line, ?_, ?_⟩
    · simp [Source.tokens, Lexer.tokenize, Lexer.ofString, Cursor.drain, htokens, hfault]
    · cases ts <;>
        simp [ofLexer, Lexer.items, Lexer.ofString, Cursor.drain, htokens, hfault, before, items]
  · refine .inr ⟨fault, ?_, ?_⟩
    · simp [Source.tokens, Lexer.tokenize, Lexer.ofString, Cursor.drain, hfault]
    · intro p hp
      cases ts with
      | nil =>
        simp [ofLexer, Lexer.items, Lexer.ofString, Cursor.drain, htokens, hfault] at hp
      | cons token ts =>
        simp only [ofLexer, Lexer.items, Lexer.ofString, Cursor.drain, htokens, hfault] at hp
        cases hp
        rfl

end Parser

end BlockLang
