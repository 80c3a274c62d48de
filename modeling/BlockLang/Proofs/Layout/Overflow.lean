import BlockLang.Proofs.Layout.Scanning

/-!
# Canonical forms and infinite floats

A literal with too many digits stands for an infinite float, and the word that this float is
written as cannot be read.  Such a word is in a canonical form if and only if there is such a
literal in the program (`Stmt.fits_blockPieces`).

The tokens of a canonical form therefore are the words that it was built from if all floats fit
(`Source.tokens_format`), and without this there may also be a fault
(`Source.tokens_format_or_fault`).
-/

namespace BlockLang

namespace Piece

variable {pieces pieces' rest : List Piece} {kind : TokenKind} {text : String}

/-- No infinite float is among the words of the pieces. -/
def Fits (pieces : List Piece) : Prop :=
  infinity ∉ words pieces

@[simp] lemma fits_nil : Fits [] :=
  List.not_mem_nil

@[simp] lemma fits_append : Fits (pieces ++ pieces') ↔ Fits pieces ∧ Fits pieces' := by
  simp only [Fits, words, List.filterMap_append, List.mem_append, not_or]

@[simp] lemma fits_word :
    Fits (.word kind text :: rest) ↔ (kind, text) ≠ infinity ∧ Fits rest := by
  have hwords : words (.word kind text :: rest) = (kind, text) :: words rest := rfl
  rw [Fits, hwords, List.mem_cons, not_or, ne_comm]
  rfl

@[simp] lemma fits_space : Fits (.space :: rest) ↔ Fits rest :=
  Iff.rfl

@[simp] lemma fits_newline : Fits (.newline :: rest) ↔ Fits rest :=
  Iff.rfl

@[simp] lemma fits_indent {level : Nat} : Fits (.indent level :: rest) ↔ Fits rest :=
  Iff.rfl

/-- Words of other kinds are no floats. -/
lemma ne_infinity (hkind : kind ≠ .float) : (kind, text) ≠ infinity :=
  fun h => hkind (Prod.mk.inj h).1

@[simp] lemma fits_mark (hkind : kind ≠ .float) : Fits (.mark kind :: rest) ↔ Fits rest :=
  fits_word.trans (and_iff_right (ne_infinity hkind))

@[simp] lemma fits_name {ident : Ident} : Fits (ident.word :: rest) ↔ Fits rest :=
  fits_word.trans (and_iff_right (ne_infinity (by decide)))

@[simp] lemma fits_typeWords {ty : Option Ident} : Fits (Ident.typeWords ty) := by
  cases ty with
  | none => exact fits_nil
  | some name => simp [Ident.typeWords]

/-- Parentheses are no floats. -/
@[simp] lemma fits_enclosed {encloses : Bool} :
    Fits (if encloses then parenthesized pieces else pieces) ↔ Fits pieces := by
  cases encloses <;> simp [parenthesized]

end Piece

open Piece

@[simp] lemma BinOp.token_ne_float (op : BinOp) : op.token ≠ .float := by
  cases op <;> decide

@[simp] lemma UnaryOp.token_ne_float (op : UnaryOp) : op.token ≠ .float := by
  cases op <;> decide

/-- Infinity is not written in digits. -/
lemma Decimal.not_isPointed_infinity : ¬ IsPointed infinity.2 := by
  rintro ⟨whole, fraction, htext, hne, hwhole, -⟩
  obtain ⟨first, rest, rfl⟩ := List.exists_cons_of_ne_nil hne
  have hlist : infinity.2.toList = first :: (rest ++ '.' :: fraction) := by
    rw [htext, String.toList_ofList, List.cons_append]
  obtain rfl : 'i' = first := (List.cons.inj hlist).1
  exact absurd (hwhole 'i' (List.mem_cons_self ..)) (by decide)

/-- A float without a sign is written as infinity only if it is infinite. -/
lemma Literal.fits_word {value : Literal} (h : value.IsUnsigned) :
    Fits [value.word] ↔ (Expr.literal value).FloatFits := by
  cases value with
  | int value line => exact iff_of_true (by simp [Literal.word, ne_infinity]) trivial
  | float value line =>
    have hpointed : (Decimal.Parts.ofFloat value = .zero false ∨
        ∃ size, Decimal.Parts.ofFloat value = .finite false size) →
        Fits [(Literal.float value line).word] := by
      intro hwritten
      refine Piece.fits_word.mpr ⟨fun hword => ?_, fits_nil⟩
      have htext : Decimal.plain value = infinity.2 := (Prod.mk.inj hword).2
      exact Decimal.not_isPointed_infinity (htext ▸ Decimal.isPointed_plain hwritten)
    obtain hzero | ⟨size, hfinite⟩ | hinfinite := h
    · exact iff_of_true (hpointed (.inl hzero)) fun negative => by simp [hzero]
    · exact iff_of_true (hpointed (.inr ⟨size, hfinite⟩)) fun negative => by simp [hfinite]
    · refine iff_of_false (fun hfits => ?_) fun hfits => hfits false hinfinite
      have hword := (Piece.fits_word.mp hfits).1
      rw [Decimal.plain_of_infinite hinfinite] at hword
      exact hword rfl
  | bool value line => exact iff_of_true (by cases value <;> simp [Literal.word]) trivial
  | char value line => exact iff_of_true (by simp [Literal.word, ne_infinity]) trivial

mutual

lemma Expr.fits_pieces : ∀ {e : Expr}, e.Everywhere .spelled → ∀ level : Nat,
    Fits (e.pieces level) ↔ e.Everywhere .floatsFit
  | .literal _, h, _ => Literal.fits_word h
  | .name _, _, _ => by simp [Expr.pieces, Expr.Everywhere, Expr.FloatFits]
  | .unary _ _ _, h, level => by
    have hoperand := Expr.fits_pieces h.2 level
    simp [Expr.pieces, Expr.Everywhere, Expr.FloatFits, hoperand]
  | .binary _ _ _ _, h, level => by
    have hleft := Expr.fits_pieces h.2.1 level
    have hright := Expr.fits_pieces h.2.2 level
    simp [Expr.pieces, Expr.Everywhere, Expr.FloatFits, hleft, hright]
  | .block _ _, h, level => by
    have hbody := Stmt.fits_blockPieces h.2 (level + 1)
    simp [Expr.pieces, Expr.Everywhere, Expr.FloatFits, hbody]

lemma Stmt.fits_pieces : ∀ {s : Stmt}, s.Everywhere .spelled → ∀ level : Nat,
    Fits (s.pieces level) ↔ s.Everywhere .floatsFit
  | .constDef _ _ _ _, h, level | .varDef _ _ _ _, h, level | .assign _ _ _, h, level
  | .print _ _, h, level | .expr _, h, level => by
    have hvalue := Expr.fits_pieces h.2 level
    simp [Stmt.pieces, Stmt.Everywhere, hvalue]
  | .varDecl _ _ _, _, _ | .breakLoop _, _, _ | .continueLoop _, _, _ => by
    simp [Stmt.pieces, Stmt.Everywhere]
  | .ifElse test thenBlock elseBlock _, h, level => by
    have htest := Expr.fits_pieces h.2.1 level
    have hthen := Stmt.fits_blockPieces h.2.2.1 (level + 1)
    have helse := Stmt.fits_blockPieces h.2.2.2 (level + 1)
    cases elseBlock with
    | nil => simp [Stmt.pieces, Stmt.Everywhere, htest, hthen, Stmt.AllEverywhere]
    | cons first rest =>
      simp [Stmt.pieces, Stmt.Everywhere, htest, hthen, helse]
  | .whileLoop _ _ _, h, level => by
    have htest := Expr.fits_pieces h.2.1 level
    have hbody := Stmt.fits_blockPieces h.2.2 (level + 1)
    simp [Stmt.pieces, Stmt.Everywhere, htest, hbody]

/-- Infinite floats are in the canonical form of statements just if they are in the statements. -/
lemma Stmt.fits_blockPieces : ∀ {body : List Stmt}, Stmt.AllEverywhere .spelled body →
    ∀ level : Nat, Fits (Stmt.blockPieces level body) ↔ Stmt.AllEverywhere .floatsFit body
  | [], _, _ => iff_of_true fits_nil trivial
  | _ :: _, h, level => by
    rw [Stmt.blockPieces, fits_append]
    exact and_congr (Stmt.fits_pieces h.1 level) (Stmt.fits_blockPieces h.2 level)

end

lemma Program.Spelled.scans {program : Program} (h : program.Spelled) :
    Scans program.pieces := by
  have hbody := Stmt.blockScans h 0 [] trivial
  rwa [List.append_nil] at hbody

namespace Source

variable {program : Program}

/-- The tokens of pieces that scan are their words, or there is a fault because of an infinite
float. -/
lemma tokens_render_or_fault {pieces : List Piece} (hscans : Scans pieces) :
    (∃ ts last, ts.map Token.spelled = words pieces ∧
      tokens (render pieces) = .ok (ts ++ [.endOfInput last])) ∨
    ¬ Fits pieces ∧ ∃ fault, tokens (render pieces) = .error fault := by
  have hdrain : (Cursor.ofString (render pieces)).drain = Cursor.drainWithin
      ((chars pieces).length + 1) ⟨chars pieces, 1⟩ := rfl
  obtain ⟨ts, last, hwords, htokens, hfault⟩ | ⟨hmem, fault, hfault⟩ :=
    Scans.drained_chars pieces hscans _ 1 (Nat.lt_succ_self _)
  · refine .inl ⟨ts, last, hwords, ?_⟩
    simp [tokens, Lexer.tokenize, Lexer.ofString, hdrain, htokens, hfault]
  · refine .inr ⟨fun hfits => hfits hmem, fault, ?_⟩
    simp [tokens, Lexer.tokenize, Lexer.ofString, hdrain, hfault]

/-- The tokens of a canonical form are the words that it was built from, or there is a fault
because of an infinite float. -/
lemma tokens_format_or_fault (h : program.Spelled) :
    (∃ ts last, ts.map Token.spelled = words program.pieces ∧
      tokens program.format = .ok (ts ++ [.endOfInput last])) ∨
    ¬ program.FloatsFit ∧ ∃ fault, tokens program.format = .error fault := by
  exact (tokens_render_or_fault h.scans).imp_right fun hstop =>
    ⟨fun hfits => hstop.1 ((Stmt.fits_blockPieces h 0).mpr hfits), hstop.2⟩

/-- The tokens of a canonical form are the words that it was built from. -/
lemma tokens_format (hw : program.WellFormed) :
    ∃ ts last, ts.map Token.spelled = words program.pieces ∧
      tokens program.format = .ok (ts ++ [.endOfInput last]) := by
  obtain ⟨hspelled, hfits⟩ := Program.wellFormed_iff.mp hw
  obtain hread | ⟨hlarge, _⟩ := tokens_format_or_fault hspelled
  · exact hread
  · exact absurd hfits hlarge

end Source

end BlockLang
