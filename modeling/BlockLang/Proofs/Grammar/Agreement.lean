import BlockLang.Proofs.Grammar.Parsing
import BlockLang.Proofs.Grammar.Unambiguous
import Mathlib

/-!
# The parser and the grammar

The texts that are programs are those whose tokens the grammar derives, and the program is the
tree of the derivation, of which there is only one (`Source.parsed_exactly_if_derived`).  The
precedences by which the parser reads expressions are the tiers of the grammar
(`Parser.run_expression_eq_done_iff`).
-/

namespace BlockLang

open Grammar

namespace Parser

variable {p p' : Parser}

/-- What is read from the precedence `6 - n` on are the phrases of tier `n` that no operator of
the tier follows. -/
lemma run_expression_eq_done_iff {n depth : Nat} {e : Expr} (hn : n ≤ 5) (hp : p.Ends)
    (hdepth : 8 * p.items.length ≤ depth) :
    (expression depth (6 - n)).run p = (.done e, p') ↔
      ∃ d : Tier n, p = before d.tokens p' ∧ p'.BindsBelow (6 - n) ∧ Legible d.tokens ∧
        e.Everywhere .declared ∧ e = d.tree := by
  constructor
  · intro h
    obtain ⟨⟨d, rfl, legible, hbefore⟩, declared, hbehind⟩ :=
      (recovers depth).expression (n := n) (by omega) hp h
    exact ⟨d, hbefore, hbehind, legible, declared, rfl⟩
  · rintro ⟨d, rfl, hbehind, legible, declared, rfl⟩
    have hlength : 0 < p'.items.length := Nat.succ_pos _
    rw [items_before, List.length_append, List.length_map] at hdepth
    have hread := d.read depth (6 - n) (by omega) (hbehind.mono (by omega)) legible declared
      (by omega)
    exact hread.done hbehind (by omega)

end Parser

namespace Source

/-- The parser accepts exactly the grammar and builds the tree of the derivation.

* A text is a program if and only if its tokens, up to the end of the input, have a derivation,
  its integers are below `2 ^ 63`, its characters can be decoded and its variables have a type or
  an initial value; and then the program is the tree of the derivation.
* A derivation is determined by its tokens.
* Reading an expression from the precedence `6 - n` on is reading a phrase of tier `n`: the
  precedences of the operators agree with the five tiers of the grammar. -/
theorem parsed_exactly_if_derived :
    (∀ (source : String) (program : Program), parse source = .done program ↔
      ∃ (d : Statements) (line : Nat),
        tokens source = .ok (d.tokens ++ [.endOfInput line]) ∧
        (∀ token ∈ d.tokens, token.kind = .integer →
          Decimal.ofDigits token.text.toList < Nat.pow 2 63) ∧
        (∀ token ∈ d.tokens, token.kind = .char →
          (CharConstant.unquote? token.text).isSome = true) ∧
        (⟨d.tree⟩ : Program).Declared ∧ program = ⟨d.tree⟩) ∧
      (∀ d₁ d₂ : Statements, d₁.tokens = d₂.tokens → d₁ = d₂) ∧
      ∀ (n depth : Nat) (p p' : Parser) (e : Expr), n ≤ 5 → p.Ends →
        8 * p.items.length ≤ depth →
        ((Parser.expression depth (6 - n)).run p = (.done e, p') ↔
          ∃ d : Tier n, p = Parser.before d.tokens p' ∧ p'.BindsBelow (6 - n) ∧
            Legible d.tokens ∧ e.Everywhere .declared ∧ e = d.tree) := by
  refine ⟨fun source program => ⟨fun h => ?_, ?_⟩, fun d₁ d₂ => Statements.eq_of_tokens_eq,
    fun n depth p p' e => Parser.run_expression_eq_done_iff⟩
  · obtain ⟨d, line, htokens, hinner, legible, declared, hprogram⟩ := derivation_of_parse h
    have hvalue := fun token hmem => (hinner token hmem).hasValue_iff.mp (legible token hmem)
    exact ⟨d, line, htokens, fun token hmem => (hvalue token hmem).1,
      fun token hmem => (hvalue token hmem).2, hprogram ▸ declared, hprogram⟩
  · rintro ⟨d, line, htokens, hinteger, hchar, declared, rfl⟩
    have hinner := inner_of_tokens htokens
    have legible : Legible d.tokens := fun token hmem =>
      (hinner token hmem).hasValue_iff.mpr ⟨hinteger token hmem, hchar token hmem⟩
    exact parse_of_derivation htokens legible declared

/-- An assignment has a derivation, and no other one has its text; and the number on its right is
a phrase of tier `5`. -/
theorem parsed_assignment :
    (∃ (d : Statements) (line : Nat), tokens "a = 1;" = .ok (d.tokens ++ [.endOfInput line]) ∧
      [.assign ⟨"a", 1⟩ (.literal (.int 1 1)) 1] = d.tree ∧
      ∀ d' : Statements, d'.tokens = d.tokens → d' = d) ∧
      ∃ d : Tier 5, .literal (.int 1 1) = d.tree := by
  obtain ⟨hparsed, hunique, hphrase⟩ := parsed_exactly_if_derived
  constructor
  · obtain ⟨d, line, htokens, _, _, _, hprogram⟩ :=
      (hparsed "a = 1;" ⟨[.assign ⟨"a", 1⟩ (.literal (.int 1 1)) 1]⟩).mp (by cbv)
    exact ⟨d, line, htokens, congrArg Program.body hprogram, fun d' => hunique d' d⟩
  · obtain ⟨d, _, _, _, _, htree⟩ :=
      (hphrase 5 16 ⟨⟨.integer, "1", 1⟩, [.ok (.endOfInput 1)]⟩ ⟨.endOfInput 1, []⟩
        (.literal (.int 1 1)) (by decide) (.token (by decide) (.endOfInput rfl)) (by decide)).mp
        (by cbv)
    exact ⟨d, htree⟩

end Source

end BlockLang
