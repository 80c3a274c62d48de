import BlockLang.Proofs.Formatting
import BlockLang.Proofs.Grammar.Unambiguous
import BlockLang.Proofs.Layout.Phrases
import BlockLang.Proofs.Token.Spacing

/-!
# The canonical form is the shortest text of a program

Formatting takes from the words of a text what is redundant and spells its numbers and characters
in one way; all other words stay, in their order (`Source.format_tidies`).  This is true of every
text of a program, and all of them have the same canonical form, so that none has fewer words than
this form.

The proof goes along the derivation of a text (`Statements.tidied`).  The words of a phrase become
those of the canonical form of its tree, in parentheses where the place of the phrase asks for a
lower tier than the tree has (`Expr.piecesAt`).  Operators of one tier are taken from left to right
(`Links.tidied`), since the tree on the left of each grows with them.
-/

namespace BlockLang

open Grammar
open Piece (words words_append words_parenthesized)

/-! ## Words in parentheses -/

/-- A word that stands for an expression loses all its parentheses. -/
lemma Grammar.Wrapped.tidied {α : Type} {text : α → Token} {e : Expr}
    {vs : List (TokenKind × String)} : ∀ {w : Wrapped α}, Proper (w.tokens text) →
    ((text w.word).Proper → Tidied (e.phrases 0) [(text w.word).spelled] vs) →
    Tidied (e.phrases 0) ((w.tokens text).map Token.spelled) vs
  | .bare word, h, hword => hword (h _ (List.mem_singleton_self _))
  | .parens opening inner closing, h, hword => by
    simp only [Wrapped.tokens, proper_cons, proper_append] at h
    obtain ⟨hopening, hinner, hclosing, -⟩ := h
    have htidied := Wrapped.tidied hinner hword
    have hparens := Tidied.unparen htidied.mem (Nat.zero_le 5) (Nat.le_refl 0)
    simpa [Wrapped.tokens, hopening.spelled_eq rfl, hclosing.spelled_eq rfl] using
      hparens.trans htidied

namespace Grammar

/-! ## Along a derivation -/

/-- A statement of which the words are already those of the canonical form. -/
lemma Statement.tidied_of_eq {d : Statement} {level : Nat}
    (h : words (d.tree.pieces level) = d.tokens.map Token.spelled) :
    Tidied d.tree.phrases (d.tokens.map Token.spelled) (words (d.tree.pieces level)) := by
  rw [h]
  exact .refl ⟨d, rfl, rfl⟩

/-- An empty block consists of its braces. -/
lemma Proper.tokens_of_empty {d : Block} (h : Proper d.tokens) (hbody : d.body = []) :
    d.tokens.map Token.spelled = [TokenKind.lbrace.sign, TokenKind.rbrace.sign] := by
  obtain ⟨opening, body, closing⟩ := d
  cases body with
  | nil =>
    simp only [Block.tokens, Statements.tokens, List.nil_append, proper_cons] at h
    simp [Block.tokens, Statements.tokens, h.1.spelled_eq rfl, h.2.1.spelled_eq rfl]
  | cons first rest => cases hbody

/-- A choice without an alternative. -/
lemma tidied_ifThen {keyword : Word .kwIf} (hkeyword : keyword.1.Proper) {test : Expr}
    {thenBlock : List Stmt} {level : Nat} {ws vs : List (TokenKind × String)}
    (htest : Tidied (test.phrases 5) ws (words (test.piecesAt 5 level)))
    (hthen : Tidied (Stmt.blockPhrases thenBlock) vs (TokenKind.lbrace.sign ::
      (words (Stmt.blockPieces (level + 1) thenBlock) ++ [TokenKind.rbrace.sign]))) :
    Tidied (Stmt.ifElse test thenBlock [] keyword.1.line).phrases
      (keyword.1.spelled :: (ws ++ vs))
      (words ((Stmt.ifElse test thenBlock [] keyword.1.line).pieces level)) := by
  have hwhole := ((Tidied.words [keyword.1.spelled]).mul (htest.mul hthen)).mono
    (Stmt.ifThen_phrases keyword test thenBlock keyword.1.line)
  simpa [Stmt.pieces, hkeyword.spelled_eq rfl] using hwhole

mutual

lemma Tier.tidied : ∀ {n : Nat} (d : Tier n), Proper d.tokens →
    d.tree.Everywhere .wellFormed → ∀ level : Nat,
    Tidied (d.tree.phrases n) (d.tokens.map Token.spelled) (words (d.tree.piecesAt n level))
  | _, .factor factor, h, hw, level => factor.tidied h hw level
  | _, .tier first links, h, hw, level => by
    rw [Tier.tokens, proper_append] at h
    rw [Tier.tree] at hw ⊢
    have hleft := links.everywhere_left hw
    have hfirst := (first.tidied h.1 hleft level).raise hleft (Nat.le_succ _)
    rw [Tier.tokens, List.map_append]
    exact links.tidied h.2 hw hfirst

/-- What stands to the left of operators has been tidied when their right sides are. -/
lemma Links.tidied : ∀ {n level : Nat} (d : Links n) {left : Expr}
    {ws : List (TokenKind × String)}, Proper d.tokens → (d.tree left).Everywhere .wellFormed →
    Tidied (left.phrases (n + 1)) ws (words (left.piecesAt (n + 1) level)) →
    Tidied ((d.tree left).phrases (n + 1)) (ws ++ d.tokens.map Token.spelled)
      (words ((d.tree left).piecesAt (n + 1) level))
  | _, _, .nil, _, _, _, _, hleft => by
    rw [Links.tokens, List.map_nil, List.append_nil]
    exact hleft
  | n, level, .cons op atTier sign right rest, left, ws, h, hw, hleft => by
    simp only [Links.tokens, proper_cons, proper_append] at h
    obtain ⟨hsign, hright, hrest⟩ := h
    rw [Links.tree] at hw ⊢
    have hn := mem_operatorsAt_iff.mp atTier
    have hright := right.tidied hright (rest.everywhere_left hw).2.2 level
    have hbinary := (hleft.mul ((Tidied.words [sign.1.spelled]).mul hright)).mono
      (Expr.binary_phrases atTier sign left right.tree sign.1.line)
    have hpieces : words (left.piecesAt (n + 1) level) ++ ([sign.1.spelled] ++
        words (right.tree.piecesAt n level)) = words
          ((Expr.binary op left right.tree sign.1.line).piecesAt (n + 1) level) := by
      rw [Expr.piecesAt_of_tier_le (e := .binary ..) (by rw [Expr.tier]; omega),
        Expr.pieces_binary hn, hsign.spelled_eq (by cases op <;> rfl)]
      simp
    rw [hpieces] at hbinary
    have hwhole := rest.tidied hrest hw hbinary
    simpa [Links.tokens] using hwhole

lemma Factor.tidied : ∀ (d : Factor), Proper d.tokens →
    d.tree.Everywhere .wellFormed → ∀ level : Nat,
    Tidied (d.tree.phrases 0) (d.tokens.map Token.spelled) (words (d.tree.piecesAt 0 level))
  | .signed op sign operand, h, hw, level => by
    simp only [Factor.tokens, proper_cons] at h
    rw [Factor.tree] at hw ⊢
    have hunary := ((Tidied.words [sign.1.spelled]).mul (operand.tidied h.2 hw.2 level)).mono
      (Expr.unary_phrases sign operand.tree sign.1.line)
    rw [Expr.piecesAt_of_tier_le (e := .unary ..) (n := 0) le_rfl, Expr.pieces_unary]
    simpa [Factor.tokens, h.1.spelled_eq (by cases op <;> rfl)] using hunary
  | .primary primary, h, hw, level => primary.tidied h hw level

lemma Primary.tidied : ∀ (d : Primary), Proper d.tokens →
    d.tree.Everywhere .wellFormed → ∀ level : Nat,
    Tidied (d.tree.phrases 0) (d.tokens.map Token.spelled) (words (d.tree.piecesAt 0 level))
  | .literal word, h, hw, _ => Tidied.literal (h _ (List.mem_singleton_self _)) hw
  | .name word, _, _, _ => Tidied.name word
  | .parens opening inner closing, h, hw, level => by
    simp only [Primary.tokens, proper_cons, proper_append] at h
    obtain ⟨hopening, hinner, hclosing, -⟩ := h
    rw [Primary.tree] at hw ⊢
    have htidied := (inner.tidied hinner hw level).inParens 0
    have hparens := Tidied.parenthesized hw 0 level
    rw [words_parenthesized] at hparens
    rw [Expr.piecesAt_five] at htidied
    simpa [Primary.tokens, hopening.spelled_eq rfl, hclosing.spelled_eq rfl] using
      htidied.trans hparens
  | .block block, h, hw, level => by
    have hblock := (block.tidied h hw.2 level).mono
      (Expr.block_phrases 0 block.body block.line)
    rw [Primary.tree, Expr.piecesAt_of_tier_le (e := .block ..) (n := 0) le_rfl]
    simpa [Primary.tokens, Expr.pieces] using hblock

lemma Block.tidied : ∀ (d : Block), Proper d.tokens →
    Stmt.AllEverywhere .wellFormed d.body → ∀ level : Nat,
    Tidied (Stmt.blockPhrases d.body) (d.tokens.map Token.spelled)
      (TokenKind.lbrace.sign ::
        (words (Stmt.blockPieces (level + 1) d.body) ++ [TokenKind.rbrace.sign]))
  | .braces opening body closing, h, hw, level => by
    simp only [Block.tokens, proper_cons, proper_append] at h
    obtain ⟨hopening, hbody, hclosing, -⟩ := h
    have hbraces := ((Tidied.words [opening.1.spelled]).mul
      ((body.tidied hbody hw (level + 1)).mul (Tidied.words [closing.1.spelled]))).mono
      (Stmt.braces_phrases opening closing body.tree)
    simpa [Block.tokens, Block.body, hopening.spelled_eq rfl, hclosing.spelled_eq rfl] using hbraces

lemma Statements.tidied : ∀ (d : Statements), Proper d.tokens →
    Stmt.AllEverywhere .wellFormed d.tree → ∀ level : Nat,
    Tidied (Stmt.allPhrases d.tree) (d.tokens.map Token.spelled)
      (words (Stmt.blockPieces level d.tree))
  | .nil, _, _, _ => .refl ⟨.nil, rfl, rfl⟩
  | .cons first rest, h, hw, level => by
    rw [Statements.tokens, proper_append] at h
    rw [Statements.tree] at hw ⊢
    rw [Statements.tokens, List.map_append, Stmt.blockPieces, words_append]
    exact ((first.tidied h.1 hw.1 level).mul (rest.tidied h.2 hw.2 level)).mono
      (Stmt.cons_phrases first.tree rest.tree)

lemma Statement.tidied : ∀ (d : Statement), Proper d.tokens →
    d.tree.Everywhere .wellFormed → ∀ level : Nat,
    Tidied d.tree.phrases (d.tokens.map Token.spelled) (words (d.tree.pieces level))
  | .print keyword value semi, h, hw, level => by
    simp only [Statement.tokens, proper_cons, proper_append] at h
    obtain ⟨hkeyword, hvalue, hsemi, -⟩ := h
    have hwhole := ((Tidied.words [keyword.1.spelled]).mul
      ((value.tidied hvalue hw.2 level).mul (Tidied.words [semi.1.spelled]))).mono
      (Stmt.print_phrases keyword semi value.tree keyword.1.line)
    simpa [Statement.tokens, Statement.tree, Stmt.pieces, hkeyword.spelled_eq rfl,
      hsemi.spelled_eq rfl] using hwhole
  | .varDef keyword name ty sign value semi, h, hw, level => by
    simp only [Statement.tokens, proper_cons, proper_append] at h
    obtain ⟨hkeyword, -, -, hsign, hvalue, hsemi, -⟩ := h
    have hwhole := ((Tidied.words _).mul
      ((value.tidied hvalue hw.2 level).mul (Tidied.words [semi.1.spelled]))).mono
      (Stmt.varDef_phrases keyword name ty sign semi value.tree keyword.1.line)
    simpa [Statement.tokens, Statement.tree, Stmt.pieces, words_typeWords, Token.spelled_name,
      hkeyword.spelled_eq rfl, hsign.spelled_eq rfl, hsemi.spelled_eq rfl] using hwhole
  | .varDecl keyword name ty semi, h, hw, level => by
    simp only [Statement.tokens, proper_cons, proper_append] at h
    obtain ⟨hkeyword, -, -, hsemi, -⟩ := h
    refine Statement.tidied_of_eq ?_
    simp [Statement.tokens, Statement.tree, Stmt.pieces, words_typeWords, Token.spelled_name,
      hkeyword.spelled_eq rfl, hsemi.spelled_eq rfl]
  | .constDef keyword name ty sign value semi, h, hw, level => by
    simp only [Statement.tokens, proper_cons, proper_append] at h
    obtain ⟨hkeyword, -, -, hsign, hvalue, hsemi, -⟩ := h
    have hliteral : Tidied ((Expr.literal (literalValue value.word)).phrases 5) _
        (words ((Expr.literal (literalValue value.word)).pieces level)) :=
      (Wrapped.tidied hvalue fun hword => Tidied.literal hword hw.2).mono
        (Expr.phrases_mono _ (Nat.zero_le 5))
    have hwhole := ((Tidied.words _).mul (hliteral.mul (Tidied.words [semi.1.spelled]))).mono
      (Stmt.constDef_phrases keyword name ty sign semi _ keyword.1.line)
    simpa [Statement.tokens, Statement.tree, Stmt.pieces, words_typeWords, Token.spelled_name,
      hkeyword.spelled_eq rfl, hsign.spelled_eq rfl, hsemi.spelled_eq rfl] using hwhole
  | .assign target sign value semi, h, hw, level => by
    simp only [Statement.tokens, proper_cons, proper_append] at h
    obtain ⟨htarget, hsign, hvalue, hsemi, -⟩ := h
    have hname := (Wrapped.tidied htarget fun _ => Tidied.name target.word).mono
      (Expr.phrases_mono _ (Nat.zero_le 5))
    have hwhole := (hname.mul ((Tidied.words [sign.1.spelled]).mul
      ((value.tidied hvalue hw.2 level).mul (Tidied.words [semi.1.spelled])))).mono
      (Stmt.assign_phrases sign semi (ident target.word) value.tree sign.1.line)
    simpa [Statement.tokens, Statement.tree, Stmt.pieces, hsign.spelled_eq rfl,
      hsemi.spelled_eq rfl] using hwhole
  | .ifThen keyword test thenBlock, h, hw, level => by
    simp only [Statement.tokens, proper_cons, proper_append] at h
    obtain ⟨hkeyword, htest, hthen⟩ := h
    have hwhole := tidied_ifThen hkeyword (test.tidied htest hw.2.1 level)
      (thenBlock.tidied hthen hw.2.2.1 level)
    simpa [Statement.tokens, Statement.tree] using hwhole
  | .ifElse keyword test thenBlock otherwise elseBlock, h, hw, level => by
    simp only [Statement.tokens, proper_cons, proper_append] at h
    obtain ⟨hkeyword, htest, hthen, hotherwise, helse⟩ := h
    have htest := test.tidied htest hw.2.1 level
    have hthen := thenBlock.tidied hthen hw.2.2.1 level
    rw [Statement.tree] at hw ⊢
    cases hbody : elseBlock.body with
    | nil =>
      have hwhole := tidied_ifThen hkeyword htest hthen
      have hempty : elseBlock.tokens.map Token.spelled =
          [TokenKind.lbrace.sign, TokenKind.rbrace.sign] := helse.tokens_of_empty hbody
      refine .trans (.step ?_ hwhole.mem ?_) hwhole
      · refine ⟨.ifElse keyword test thenBlock otherwise elseBlock, rfl, ?_⟩
        rw [Statement.tree, hbody]
      · simpa [Statement.tokens, hempty, hotherwise.spelled_eq rfl] using
          Tidies.emptyElse ((keyword.1 :: (test.tokens ++ thenBlock.tokens)).map Token.spelled) []
    | cons first rest =>
      have hwhole := ((Tidied.words [keyword.1.spelled]).mul (htest.mul (hthen.mul
        ((Tidied.words [otherwise.1.spelled]).mul
          (elseBlock.tidied helse hw.2.2.2 level))))).mono
        (Stmt.ifElse_phrases keyword otherwise test.tree thenBlock.body elseBlock.body
          keyword.1.line)
      rw [hbody] at hwhole
      simpa [Statement.tokens, Stmt.pieces, hkeyword.spelled_eq rfl,
        hotherwise.spelled_eq rfl] using hwhole
  | .whileLoop keyword test body, h, hw, level => by
    simp only [Statement.tokens, proper_cons, proper_append] at h
    obtain ⟨hkeyword, htest, hbody⟩ := h
    have hwhole := ((Tidied.words [keyword.1.spelled]).mul
      ((test.tidied htest hw.2.1 level).mul (body.tidied hbody hw.2.2 level))).mono
      (Stmt.whileLoop_phrases keyword test.tree body.body keyword.1.line)
    simpa [Statement.tokens, Statement.tree, Stmt.pieces, hkeyword.spelled_eq rfl] using hwhole
  | .breakLoop keyword semi, h, _, level => by
    simp only [Statement.tokens, proper_cons] at h
    refine Statement.tidied_of_eq ?_
    simp [Statement.tokens, Statement.tree, Stmt.pieces, h.1.spelled_eq rfl,
      h.2.1.spelled_eq rfl]
  | .continueLoop keyword semi, h, _, level => by
    simp only [Statement.tokens, proper_cons] at h
    refine Statement.tidied_of_eq ?_
    simp [Statement.tokens, Statement.tree, Stmt.pieces, h.1.spelled_eq rfl,
      h.2.1.spelled_eq rfl]
  | .expr value semi, h, hw, level => by
    simp only [Statement.tokens, proper_cons, proper_append] at h
    obtain ⟨hvalue, hsemi, -⟩ := h
    have hwhole := ((value.tidied hvalue hw.2 level).mul (Tidied.words [semi.1.spelled])).mono
      (Stmt.expr_phrases semi value.tree)
    simpa [Statement.tokens, Statement.tree, Stmt.pieces, hsemi.spelled_eq rfl] using hwhole

end

/-! ## Derivations on other lines -/

/-- A text has one derivation, so that other lines change nothing but lines. -/
lemma Statements.eraseAllLines_reline (f : Nat → Nat) (d : Statements) :
    Stmt.eraseAllLines (d.reline f).tree = Stmt.eraseAllLines d.tree := by
  have hsame : (d.reline f).reline (fun _ => 0) = d.reline fun _ => 0 := by
    refine Statements.eq_of_tokens_eq ?_
    simp only [Statements.tokens_reline, List.map_map]
    rfl
  have herased : ∀ d : Statements, Stmt.eraseAllLines d.tree = (d.reline fun _ => 0).tree :=
    fun d => by rw [← Stmt.relabelAll_erasing, d.tree_reline, Relabelling.erasing]
  rw [herased, hsame, herased d]

end Grammar

/-! ## The texts of a program -/

/-- The words of all texts that are parsed as a program, up to lines. -/
def Program.texts (program : Program) : Language (TokenKind × String) :=
  {ws | ∃ (source : String) (parsed : Program) (ts : List Token) (last : Nat),
    Source.parse source = .done parsed ∧
    parsed.eraseLines = program.eraseLines ∧
    Source.tokens source = .ok (ts ++ [.endOfInput last]) ∧ ts.map Token.spelled = ws}

/-- What is derived can be written as a text, with a space between each two words. -/
lemma Program.mem_texts {program : Program} {ws : List (TokenKind × String)}
    (declared : program.Declared) (h : ws ∈ Stmt.allPhrases program.body) (hws : ProperWords ws) :
    ws ∈ program.texts := by
  obtain ⟨d, rfl, htree⟩ := h
  have hproper : Proper d.tokens := fun token hmem => hws token (List.mem_map_of_mem hmem)
  have hread : Source.tokens (Token.spaced d.tokens) =
      .ok ((d.reline fun _ => 1).tokens ++ [.endOfInput 1]) := by
    rw [Statements.tokens_reline]
    exact Source.tokens_eq_iff.mpr
      (Cursor.lexes_spaced fun token hmem => (hproper token hmem).isMatch)
  have legible : Legible (d.reline fun _ => 1).tokens := by
    rw [Statements.tokens_reline]
    exact Legible.reline _ fun token hmem => (hproper token hmem).hasValue
  have hsame := (d.eraseAllLines_reline fun _ => 1).trans htree
  have declared' : (⟨(d.reline fun _ => 1).tree⟩ : Program).Declared := by
    have herased := Stmt.allEverywhere_declared_eraseAllLines.mpr declared
    rw [← hsame] at herased
    exact Stmt.allEverywhere_declared_eraseAllLines.mp herased
  refine ⟨_, _, _, _, Source.parse_of_derivation hread legible declared',
    congrArg Program.mk hsame, hread, ?_⟩
  rw [Statements.tokens_reline, List.map_map]
  rfl

namespace Source

variable {source source' : String} {program program' : Program}

lemma floatsFit_congr (h : parse source = .done program) (h' : parse source' = .done program')
    (hsame : program.eraseLines = program'.eraseLines) (hfits : program.FloatsFit) :
    program'.FloatsFit := by
  obtain ⟨formatted, hparse, -⟩ := parse_format_of_fits h hfits
  rw [Program.format_congr hsame] at hparse
  by_contra hlarge
  exact not_parse_format_of_infinite (spelled_of_parse h') hlarge formatted hparse

/-- The words of a text become those of the canonical form. -/
lemma tidied_of_parse {ts : List Token} {last : Nat} (h : parse source = .done program)
    (hfits : program.FloatsFit) (htokens : tokens source = .ok (ts ++ [.endOfInput last])) :
    Tidied program.texts (ts.map Token.spelled) (words program.pieces) := by
  obtain ⟨d, last', htokens', -, legible, declared, rfl⟩ := derivation_of_parse h
  obtain ⟨rfl, -⟩ := List.append_inj' (Except.ok.inj (htokens.symm.trans htokens')) rfl
  have hproper : Proper d.tokens := by
    obtain ⟨inner, last'', hinner, hlexes⟩ := exists_lexes_of_tokens htokens
    obtain ⟨rfl, -⟩ := List.append_inj' hinner rfl
    exact fun token hmem => ⟨hlexes.matches_of_mem token hmem, legible token hmem⟩
  have hw := Program.wellFormed_iff.mpr ⟨spelled_of_parse h, hfits⟩
  exact (d.tidied hproper hw 0).of_properWords hproper.properWords
    fun ws hmem hws => Program.mem_texts declared hmem hws

/-- Formatting only takes redundant words away.  Unless a literal of a text is too large for a
float, the words of its canonical form come from those of the text by taking away pairs of
parentheses and empty alternatives and by spelling numbers and characters in another way.  Behind
each step are the words of a text of the same program up to lines, and no text of this program has
fewer words than the canonical form. -/
theorem format_tidies (h : parse source = .done program) (hfits : program.FloatsFit) :
    ∃ (text : String) (ts ts' : List Token) (last last' : Nat), format source = .done text ∧
      tokens source = .ok (ts ++ [.endOfInput last]) ∧
      tokens text = .ok (ts' ++ [.endOfInput last']) ∧
      Tidied program.texts (ts.map Token.spelled) (ts'.map Token.spelled) ∧
      ∀ (other : String) (parsed : Program) (us : List Token) (line : Nat),
        parse other = .done parsed → parsed.eraseLines = program.eraseLines →
        tokens other = .ok (us ++ [.endOfInput line]) → ts'.length ≤ us.length := by
  obtain ⟨d, last, htokens, -⟩ := derivation_of_parse h
  have hw := Program.wellFormed_iff.mpr ⟨spelled_of_parse h, hfits⟩
  obtain ⟨ts', last', hwords, htokens'⟩ := tokens_format hw
  have htidied := tidied_of_parse h hfits htokens
  rw [← hwords] at htidied
  refine ⟨program.format, d.tokens, ts', last, last', format_of_parse h, htokens, htokens',
    htidied, ?_⟩
  intro other parsed us line hother hsame hus
  have hfits' := floatsFit_congr h hother hsame.symm hfits
  have hshorter := (tidied_of_parse hother hfits' hus).length_le
  rw [Program.pieces_congr hsame, ← hwords] at hshorter
  simpa using hshorter

/-- One of two pairs of parentheses goes, a zero in front of a number, and an alternative. -/
theorem format_tidies_product :
    ∃ program : Program,
      parse "print ((1 + 2)) * 03; if true \x7b\x7d else \x7b\x7d" = .done program ∧
      program.FloatsFit ∧
      format "print ((1 + 2)) * 03; if true \x7b\x7d else \x7b\x7d" =
        .done "print (1 + 2) * 3;\nif true \x7b\n\x7d\n" ∧
      Tidied program.texts
        [(.kwPrint, "print"), (.lparen, "("), (.lparen, "("), (.integer, "1"), (.plus, "+"),
          (.integer, "2"), (.rparen, ")"), (.rparen, ")"), (.times, "*"), (.integer, "03"),
          (.semi, ";"), (.kwIf, "if"), (.kwTrue, "true"), (.lbrace, "\x7b"), (.rbrace, "\x7d"),
          (.kwElse, "else"), (.lbrace, "\x7b"), (.rbrace, "\x7d")]
        [(.kwPrint, "print"), (.lparen, "("), (.integer, "1"), (.plus, "+"), (.integer, "2"),
          (.rparen, ")"), (.times, "*"), (.integer, "3"), (.semi, ";"), (.kwIf, "if"),
          (.kwTrue, "true"), (.lbrace, "\x7b"), (.rbrace, "\x7d")] ∧
      ∀ (other : String) (parsed : Program) (us : List Token) (line : Nat),
        parse other = .done parsed → parsed.eraseLines = program.eraseLines →
        tokens other = .ok (us ++ [.endOfInput line]) → 13 ≤ us.length := by
  have hparse : parse "print ((1 + 2)) * 03; if true \x7b\x7d else \x7b\x7d" =
      .done ⟨[.print (.binary .mul (.binary .add (.literal (.int 1 1)) (.literal (.int 2 1)) 1)
        (.literal (.int 3 1)) 1) 1, .ifElse (.literal (.bool true 1)) [] [] 1]⟩ := by cbv
  have hfits : Program.FloatsFit ⟨[.print (.binary .mul (.binary .add (.literal (.int 1 1))
      (.literal (.int 2 1)) 1) (.literal (.int 3 1)) 1) 1,
      .ifElse (.literal (.bool true 1)) [] [] 1]⟩ :=
    ⟨⟨trivial, trivial, ⟨trivial, trivial, trivial⟩, trivial⟩,
      ⟨trivial, trivial, trivial, trivial⟩, trivial⟩
  have htokens : tokens "print ((1 + 2)) * 03; if true \x7b\x7d else \x7b\x7d" =
      .ok ([⟨.kwPrint, "print", 1⟩, ⟨.lparen, "(", 1⟩, ⟨.lparen, "(", 1⟩, ⟨.integer, "1", 1⟩,
        ⟨.plus, "+", 1⟩, ⟨.integer, "2", 1⟩, ⟨.rparen, ")", 1⟩, ⟨.rparen, ")", 1⟩,
        ⟨.times, "*", 1⟩, ⟨.integer, "03", 1⟩, ⟨.semi, ";", 1⟩, ⟨.kwIf, "if", 1⟩,
        ⟨.kwTrue, "true", 1⟩, ⟨.lbrace, "\x7b", 1⟩, ⟨.rbrace, "\x7d", 1⟩, ⟨.kwElse, "else", 1⟩,
        ⟨.lbrace, "\x7b", 1⟩, ⟨.rbrace, "\x7d", 1⟩] ++ [.endOfInput 1]) := by cbv
  have hformat : format "print ((1 + 2)) * 03; if true \x7b\x7d else \x7b\x7d" =
      .done "print (1 + 2) * 3;\nif true \x7b\n\x7d\n" := by cbv
  have htokens' : tokens "print (1 + 2) * 3;\nif true \x7b\n\x7d\n" =
      .ok ([⟨.kwPrint, "print", 1⟩, ⟨.lparen, "(", 1⟩, ⟨.integer, "1", 1⟩, ⟨.plus, "+", 1⟩,
        ⟨.integer, "2", 1⟩, ⟨.rparen, ")", 1⟩, ⟨.times, "*", 1⟩, ⟨.integer, "3", 1⟩,
        ⟨.semi, ";", 1⟩, ⟨.kwIf, "if", 2⟩, ⟨.kwTrue, "true", 2⟩, ⟨.lbrace, "\x7b", 2⟩,
        ⟨.rbrace, "\x7d", 3⟩] ++ [.endOfInput 4]) := by cbv
  obtain ⟨text, ts, ts', last, last', htext, hts, hts', htidied, hshortest⟩ :=
    format_tidies hparse hfits
  obtain rfl := Outcome.done.inj (hformat.symm.trans htext)
  obtain ⟨rfl, -⟩ := List.append_inj' (Except.ok.inj (htokens.symm.trans hts)) rfl
  obtain ⟨rfl, -⟩ := List.append_inj' (Except.ok.inj (htokens'.symm.trans hts')) rfl
  exact ⟨_, hparse, hfits, hformat, htidied, hshortest⟩

end Source

end BlockLang
