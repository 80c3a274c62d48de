import BlockLang.Proofs.Grammar.Parsing
import BlockLang.Proofs.Layout.Overflow
import BlockLang.Proofs.Layout.Rederivation
import BlockLang.Proofs.Program.Relabelling

/-!
# The canonical form is read back

The canonical form of a well-formed tree is the text of a program, and this program is the tree up
to its lines (`Source.parse_format`).

What is written is read word by word (`Source.tokens_format`), the words are derived
(`Stmt.allDerived`), and what is derived is parsed (`Source.parse_of_derivation`).
-/

namespace BlockLang

/-! ## Declared variables -/

/-- Whether a variable has a type or a value does not depend on lines. -/
lemma Stmt.allEverywhere_declared_eraseAllLines {body : List Stmt} :
    Stmt.AllEverywhere .declared (Stmt.eraseAllLines body) ↔ Stmt.AllEverywhere .declared body := by
  rw [← Stmt.relabelAll_erasing]
  exact Stmt.allEverywhere_declared_relabelAll .erasing

lemma NodeCondition.wellFormed_implies_declared :
    NodeCondition.wellFormed.Implies .declared where
  onStmt s h := by
    cases s with
    | varDecl name ty line => exact h.2.2
    | _ => trivial
  onExpr _ _ := trivial

namespace Source

variable {program : Program}

/-- A text whose tokens are the words of the canonical form of a well-formed tree is parsed, and
what is parsed is the tree up to its lines. -/
lemma parse_of_words {source : String} {ts : List Token} {line : Nat} (hw : program.WellFormed)
    (hf : program.FloatsReadBack) (hwords : ts.map Token.spelled = Piece.words program.pieces)
    (htokens : tokens source = .ok (ts ++ [.endOfInput line])) :
    ∃ parsed, parse source = .done parsed ∧ parsed.eraseLines = program.eraseLines := by
  have hspells : Piece.Spells (Stmt.blockPieces 0 program.body ++ []) ts := by
    rwa [List.append_nil]
  obtain ⟨d, ts', rfl, legible, htree, hnil⟩ := Stmt.allDerived hw hf 0 [] ts hspells
  obtain rfl := hnil.eq_nil
  rw [List.append_nil] at htokens
  have declared : (⟨d.tree⟩ : Program).Declared := by
    have hprogram := Stmt.AllEverywhere.mono NodeCondition.wellFormed_implies_declared hw
    rw [← Stmt.allEverywhere_declared_eraseAllLines, ← htree,
      Stmt.allEverywhere_declared_eraseAllLines] at hprogram
    exact hprogram
  exact ⟨⟨d.tree⟩, parse_of_derivation htokens legible declared, congrArg Program.mk htree⟩

/-- The canonical form of a well-formed tree is parsed, and what is parsed is the tree up to its
lines.  This supposes that the texts of its floats are read as these floats. -/
theorem parse_format (hw : program.WellFormed) (hf : program.FloatsReadBack) :
    ∃ parsed, parse program.format = .done parsed ∧ parsed.eraseLines = program.eraseLines := by
  obtain ⟨ts, last, hwords, htokens⟩ := tokens_format hw
  exact parse_of_words hw hf hwords htokens

/-- The round trip of a product of a sum, which keeps its parentheses. -/
theorem parse_format_product :
    ∃ parsed, parse (⟨[.varDef ⟨"a", 3⟩ none (.binary .mul (.binary .add (.literal (.int 1 1))
        (.unary .neg (.name ⟨"b", 5⟩) 4) 2) (.literal (.char '\'' 9)) 8) 7]⟩ : Program).format =
        .done parsed ∧
      parsed.eraseLines = ⟨[.varDef ⟨"a", 0⟩ none (.binary .mul (.binary .add
        (.literal (.int 1 0)) (.unary .neg (.name ⟨"b", 0⟩) 0) 0) (.literal (.char '\'' 0)) 0)
        0]⟩ := by
  have hname : isWord "a" = true ∧ TokenKind.ofKeyword? "a" = none := by decide
  have hname' : isWord "b" = true ∧ TokenKind.ofKeyword? "b" = none := by decide
  have hone : 0 ≤ (1 : Int64).toInt := by decide
  refine parse_format ?_ ?_
  · exact ⟨⟨⟨hname, nofun⟩, trivial, ⟨trivial, hone, trivial, hname'⟩, trivial⟩, trivial⟩
  · exact ⟨⟨trivial, trivial, ⟨trivial, trivial, trivial, trivial⟩, trivial⟩, trivial⟩

end Source

end BlockLang
