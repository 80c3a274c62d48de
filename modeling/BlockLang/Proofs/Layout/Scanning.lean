import BlockLang.Proofs.Layout.Words
import BlockLang.Source

/-!
# Reading back canonical forms, word by word

The tokens of a canonical form are the words that it was built from
(`Piece.Scans.drained_chars`).  Nothing is lost between them and no two of them become one token,
because each word is read as one token in front of what follows it (`Piece.Scans`).  The one word
of which this is not true stands for an infinite float, and reading stops with a fault at its
point (`Piece.infinity`).

That a list of pieces scans is shown from its end to its beginning: an expression scans in front
of everything that ends a word (`Expr.scans`), and a statement, which ends with its line, in front
of anything (`Stmt.scans`).
-/

namespace BlockLang

/-- The kind of a token and its text, without its line. -/
def Token.spelled (token : Token) : TokenKind × String :=
  (token.kind, token.text)

namespace Piece

variable {pieces rest : List Piece} {kind : TokenKind}

/-! ## The text and the words of a list of pieces -/

/-- The characters of some pieces. -/
def chars (pieces : List Piece) : List Char :=
  (render pieces).toList

@[simp] lemma chars_nil : chars [] = [] := by
  simp [chars, render]

@[simp] lemma chars_cons (piece : Piece) (rest : List Piece) :
    chars (piece :: rest) = piece.text.toList ++ chars rest := by
  simp [chars, render]

/-- The token that a piece stands for. -/
def word? : Piece → Option (TokenKind × String)
  | word kind text => some (kind, text)
  | space | newline | indent _ => none

/-- The tokens that some pieces stand for. -/
def words (pieces : List Piece) : List (TokenKind × String) :=
  pieces.filterMap word?

/-! ## Pieces that can be read back -/

/-- Each word up to the first infinite float is read as one token in front of what follows it. -/
def Scans : List Piece → Prop
  | [] => True
  | .word kind text :: rest =>
    (kind, text) = infinity ∨ kind ≠ .endOfInput ∧ Reads kind text (chars rest) ∧ Scans rest
  | .space :: rest | .newline :: rest | .indent _ :: rest => Scans rest

/-- What is read are the words and then the end of the input, or there is a fault and an infinite
float among the words. -/
def Drained (pieces : List Piece) (read : Cursor.Drained) : Prop :=
  (∃ ts last, ts.map Token.spelled = words pieces ∧ read.tokens = ts ++ [.endOfInput last] ∧
    read.fault? = none) ∨
  infinity ∈ words pieces ∧ ∃ fault, read.fault? = some fault

lemma apart_space : Apart (chars (.space :: rest)) := by
  simpa [text] using Apart.cons (chars rest) (by decide)

lemma apart_newline : Apart (chars (.newline :: rest)) := by
  simpa [text] using Apart.cons (chars rest) (by decide)

lemma apart_mark (h : kind ∈ [TokenKind.semi, .rparen]) :
    Apart (chars (.mark kind :: rest)) := by
  simp only [List.mem_cons, List.not_mem_nil, or_false] at h
  obtain rfl | rfl := h
  · simpa [mark, text, TokenKind.spelling?] using Apart.cons (c := ';') (chars rest) (by decide)
  · simpa [mark, text, TokenKind.spelling?] using Apart.cons (c := ')') (chars rest) (by decide)

/-! ## Reading the text -/

namespace Scans

open Cursor

lemma readToken_space (input : List Char) (line : Nat) :
    readToken ⟨' ' :: input, line⟩ = readToken ⟨input, line⟩ := by
  have hskip : skip .blanks line (' ' :: input) = skip .blanks line input := by
    cases input <;> rfl
  rw [readToken, readToken, skipTrivia, hskip, skipTrivia]

lemma readToken_newline (input : List Char) (line : Nat) :
    readToken ⟨'\n' :: input, line⟩ = readToken ⟨input, line + 1⟩ := by
  have hskip : skip .blanks line ('\n' :: input) = skip .blanks (line + 1) input := by
    cases input <;> rfl
  rw [readToken, readToken, skipTrivia, hskip, skipTrivia]

lemma readToken_spaces (input : List Char) (line k : Nat) :
    readToken ⟨List.replicate k ' ' ++ input, line⟩ = readToken ⟨input, line⟩ := by
  induction k with
  | zero => rfl
  | succ k ih => rw [List.replicate_succ, List.cons_append, readToken_space, ih]

/-- Reading goes on in the same way from places with the same next token. -/
lemma drainWithin_congr {steps : Nat} {cursor cursor' : Cursor}
    (h : cursor.readToken = cursor'.readToken) :
    drainWithin (steps + 1) cursor = drainWithin (steps + 1) cursor' := by
  rw [drainWithin, drainWithin, h]

/-- An infinite float is read as a name, and the point behind it begins no token. -/
lemma drainWithin_infinity (steps line : Nat) (rest : List Char) : ∃ fault,
    (drainWithin (steps + 2) ⟨infinity.2.toList ++ rest, line⟩).fault? = some fault := by
  have hname : readToken ⟨infinity.2.toList ++ rest, line⟩ =
      (.ok ⟨.name, "inf", line⟩, ⟨'.' :: '0' :: rest, line⟩) := rfl
  have hpoint : readToken ⟨'.' :: '0' :: rest, line⟩ =
      (.error (.illegalCharacter '.' line), ⟨'.' :: '0' :: rest, line⟩) := rfl
  have hkind : ¬ TokenKind.name = .endOfInput := nofun
  refine ⟨.illegalCharacter '.' line, ?_⟩
  simp only [drainWithin, hname, if_neg hkind, hpoint]

/-- From pieces that scan their words are read, and the end of the input behind them. -/
lemma drained_chars : ∀ (pieces : List Piece), Scans pieces → ∀ steps line : Nat,
    (chars pieces).length < steps → Drained pieces (drainWithin steps ⟨chars pieces, line⟩)
  | _, _, 0, _, hsteps => absurd hsteps (Nat.not_lt_zero _)
  | [], _, steps + 1, line, _ => .inl ⟨[], line, rfl, by simp [drainWithin, readToken, skipTrivia,
      skip, readHere, Token.endOfInput], by simp [drainWithin, readToken, skipTrivia, skip,
      readHere, Token.endOfInput]⟩
  | .word kind text :: rest, .inl hinfinity, steps + 1, line, hsteps => by
    obtain ⟨rfl, rfl⟩ := Prod.mk.inj hinfinity
    rw [chars_cons, Piece.text] at hsteps ⊢
    obtain ⟨k, rfl⟩ : ∃ k, steps = k + 1 := by
      have hlength : 0 < (("inf.0" : String).toList ++ chars rest).length := by simp
      exact ⟨steps - 1, by omega⟩
    exact .inr ⟨List.mem_cons_self .., drainWithin_infinity k line (chars rest)⟩
  | .word kind text :: rest, .inr ⟨hkind, hreads, hrest⟩, steps + 1, line, hsteps => by
    have hread := hreads line
    have hshorter := readToken_length_lt hread hkind
    rw [chars_cons, Piece.text] at hsteps ⊢
    have hdrain : drainWithin (steps + 1) ⟨text.toList ++ chars rest, line⟩ =
        ⟨⟨kind, text, line⟩ :: (drainWithin steps ⟨chars rest, line⟩).tokens,
          (drainWithin steps ⟨chars rest, line⟩).fault?,
          (drainWithin steps ⟨chars rest, line⟩).stop⟩ := by
      simp only [drainWithin, hread, if_neg hkind]
    rw [hdrain]
    obtain ⟨ts, last, hwords, htokens, hfault⟩ | ⟨hmem, hfault⟩ :=
      drained_chars rest hrest steps line
        (Nat.lt_of_lt_of_le hshorter (Nat.le_of_lt_succ hsteps))
    · refine .inl ⟨⟨kind, text, line⟩ :: ts, last, ?_, ?_, hfault⟩
      · rw [List.map_cons, hwords]
        rfl
      · rw [htokens, List.cons_append]
    · exact .inr ⟨List.mem_cons_of_mem _ hmem, hfault⟩
  | .space :: rest, hscans, steps + 1, line, hsteps => by
    have hsame : drainWithin (steps + 1) ⟨chars (.space :: rest), line⟩ =
        drainWithin (steps + 1) ⟨chars rest, line⟩ := drainWithin_congr (by
      rw [chars_cons]
      exact readToken_space (chars rest) line)
    rw [hsame]
    rw [chars_cons, List.length_append] at hsteps
    exact drained_chars rest hscans _ _ (by omega)
  | .newline :: rest, hscans, steps + 1, line, hsteps => by
    have hsame : drainWithin (steps + 1) ⟨chars (.newline :: rest), line⟩ =
        drainWithin (steps + 1) ⟨chars rest, line + 1⟩ := drainWithin_congr (by
      rw [chars_cons]
      exact readToken_newline (chars rest) line)
    rw [hsame]
    rw [chars_cons, List.length_append] at hsteps
    exact drained_chars rest hscans _ _ (by omega)
  | .indent level :: rest, hscans, steps + 1, line, hsteps => by
    have hsame : drainWithin (steps + 1) ⟨chars (.indent level :: rest), line⟩ =
        drainWithin (steps + 1) ⟨chars rest, line⟩ := drainWithin_congr (by
      rw [chars_cons, Piece.text, String.toList_ofList]
      exact readToken_spaces (chars rest) line (4 * level))
    rw [hsame]
    rw [chars_cons, List.length_append] at hsteps
    exact drained_chars rest hscans _ _ (by omega)

/-! ## How pieces that scan are put together -/

variable {sign : UnaryOp} {ident : Ident} {ty : Option Ident} {value : Literal}

lemma word (hkind : kind ≠ .endOfInput) {text : String} (hreads : Reads kind text (chars rest))
    (h : Scans rest) : Scans (.word kind text :: rest) :=
  .inr ⟨hkind, hreads, h⟩

lemma space (h : Scans rest) : Scans (.space :: rest) :=
  h

lemma indent (level : Nat) (h : Scans rest) : Scans (.indent level :: rest) :=
  h

lemma keyword (hkind : kind ∈ TokenKind.keywords) (apart : Apart (chars rest))
    (h : Scans rest) : Scans (.mark kind :: rest) := by
  refine word ?_ (reads_keyword hkind apart) h
  rintro rfl
  exact absurd hkind (by decide)

lemma opening (hkind : kind ∈ [TokenKind.semi, .lparen, .rparen, .lbrace]) (h : Scans rest) :
    Scans (.mark kind :: rest) := by
  have hsub : [TokenKind.semi, .lparen, .rparen, .lbrace] ⊆
      [.plus, .minus, .semi, .lparen, .rparen, .lbrace] := by decide
  refine word ?_ (reads_opening (hsub hkind) _) h
  rintro rfl
  exact absurd hkind (by decide)

lemma assign (h : Scans rest) : Scans (.mark .assign :: .space :: rest) :=
  word (by decide) (reads_mark (by decide) apart_space) h

lemma rbrace (apart : Apart (chars rest)) (h : Scans rest) : Scans (.mark .rbrace :: rest) :=
  word (by decide) (reads_mark (by decide) apart) h

lemma binary (op : BinOp) (h : Scans rest) : Scans (.mark op.token :: .space :: rest) :=
  word (by cases op <;> decide) (reads_mark (by cases op <;> decide) apart_space) h

lemma name (hident : ident.IsName) (apart : Apart (chars rest)) (h : Scans rest) :
    Scans (ident.word :: rest) :=
  word (by decide) (reads_name hident.1 hident.2 apart) h

lemma literal (hvalue : value.IsUnsigned) (apart : Apart (chars rest)) (h : Scans rest) :
    Scans (value.word :: rest) := by
  obtain hwritten | hinfinite := hvalue.isWritten_or_infinite
  · obtain ⟨kind, text, hword, hkind, hreads⟩ := value.reads_word hwritten
    rw [hword]
    refine word ?_ (hreads _ apart) h
    rintro rfl
    exact absurd hkind (by decide)
  · rw [hinfinite]
    exact .inl rfl

/-- A declared type, between a name and something that ends it. -/
lemma typed (hident : ident.IsName) (hty : ∀ name ∈ ty, name.IsName) (apart : Apart (chars rest))
    (h : Scans rest) : Scans (ident.word :: (Ident.typeWords ty ++ rest)) := by
  cases ty with
  | none => exact name hident apart h
  | some tyName => exact name hident apart_space (name (hty tyName rfl) apart h)

/-! The sign `!` is read as such unless an equals sign follows it, and no operand begins with
one. -/

/-- The pieces begin with a word that does not begin with an equals sign. -/
def Unequal (pieces : List Piece) : Prop :=
  ∃ kind text tail, pieces = .word kind text :: tail ∧ kind ∉ [TokenKind.assign, .eq]

lemma chars_ne (h : Scans rest) (hrest : Unequal rest) (tail : List Char) :
    chars rest ≠ '=' :: tail := by
  obtain ⟨kind, text, pieces, rfl, hkind⟩ := hrest
  intro heq
  obtain hinfinity | ⟨_, hreads, _⟩ := h
  · obtain ⟨rfl, rfl⟩ := Prod.mk.inj hinfinity
    rw [chars_cons] at heq
    exact absurd (List.cons.inj heq).1 (by decide)
  have hread := hreads 0
  have hinput : text.toList ++ chars pieces = '=' :: tail := by rw [← heq, chars_cons, Piece.text]
  rw [hinput] at hread
  refine hkind ?_
  cases tail with
  | nil =>
    have hassign : readToken ⟨['='], 0⟩ = (.ok ⟨.assign, "=", 0⟩, ⟨[], 0⟩) := rfl
    rw [hassign, Prod.mk.injEq, Except.ok.injEq, Token.mk.injEq] at hread
    rw [← hread.1.1]
    decide
  | cons c tail =>
    by_cases hc : c = '='
    · subst hc
      have heq : readToken ⟨'=' :: '=' :: tail, 0⟩ = (.ok ⟨.eq, "==", 0⟩, ⟨tail, 0⟩) := rfl
      rw [heq, Prod.mk.injEq, Except.ok.injEq, Token.mk.injEq] at hread
      rw [← hread.1.1]
      decide
    · have hpair : TokenKind.ofPair? '=' c = none := by
        unfold TokenKind.ofPair?
        split <;> simp_all
      have hhere : readHere 0 ('=' :: c :: tail) = (.ok ⟨.assign, "=", 0⟩, ⟨c :: tail, 0⟩) := by
        rw [readHere, hpair]
        rfl
      have hassign : readToken ⟨'=' :: c :: tail, 0⟩ = readHere 0 ('=' :: c :: tail) := rfl
      rw [hassign, hhere, Prod.mk.injEq, Except.ok.injEq, Token.mk.injEq] at hread
      rw [← hread.1.1]
      decide

lemma unary (h : Scans rest) (hrest : Unequal rest) : Scans (.mark sign.token :: rest) := by
  cases sign with
  | pos => exact word (by decide) (reads_opening (by decide) _) h
  | neg => exact word (by decide) (reads_opening (by decide) _) h
  | not => exact word (by decide) (reads_bang fun tail => chars_ne h hrest tail) h

end Scans

end Piece

open Piece

/-- An expression without a binary operator at its top begins with a word of its own. -/
lemma Expr.unequal {e : Expr} (h : e.precedence? = none) (level : Nat) (rest : List Piece) :
    Scans.Unequal (e.pieces level ++ rest) := by
  cases e with
  | literal value =>
    cases value with
    | bool value line => cases value <;> exact ⟨_, _, _, rfl, by decide⟩
    | _ => exact ⟨_, _, _, rfl, by decide⟩
  | name ident => exact ⟨_, _, _, rfl, by decide⟩
  | unary op operand line => exact ⟨op.token, _, _, rfl, by cases op <;> decide⟩
  | block body line => exact ⟨_, _, _, rfl, by decide⟩
  | binary op left right line => cases h

namespace Piece.Scans

variable {pieces rest : List Piece}

/-- What scans in front of everything that ends a word scans in parentheses. -/
lemma parenthesized
    (hpieces : ∀ rest, Apart (chars rest) → Scans rest → Scans (pieces ++ rest))
    (h : Scans rest) : Scans (Piece.parenthesized pieces ++ rest) := by
  have hclosing : Scans (.mark .rparen :: rest) := .opening (by decide) h
  have hinner := hpieces _ (apart_mark (by decide)) hclosing
  simp only [Piece.parenthesized, List.cons_append, List.append_assoc, List.nil_append]
  exact .opening (by decide) hinner

lemma enclosed (encloses : Bool)
    (hpieces : ∀ rest, Apart (chars rest) → Scans rest → Scans (pieces ++ rest))
    (apart : Apart (chars rest)) (h : Scans rest) :
    Scans ((if encloses then Piece.parenthesized pieces else pieces) ++ rest) := by
  cases encloses with
  | true => exact parenthesized hpieces h
  | false => exact hpieces rest apart h

/-- An expression at the end of a line. -/
lemma line (hpieces : ∀ rest, Apart (chars rest) → Scans rest → Scans (pieces ++ rest))
    (h : Scans rest) : Scans (pieces ++ .mark .semi :: .newline :: rest) :=
  hpieces _ (apart_mark (by decide)) (.opening (by decide) h)

end Piece.Scans

mutual

/-- An expression scans in front of everything that ends a word. -/
lemma Expr.scans : ∀ {e : Expr}, e.Everywhere .spelled → ∀ (level : Nat) (rest : List Piece),
    Apart (chars rest) → Scans rest → Scans (e.pieces level ++ rest)
  | .literal value, hw, level, rest, apart, h => .literal hw apart h
  | .name ident, hw, level, rest, apart, h => .name hw apart h
  | .unary op operand line, hw, level, rest, apart, h => by
    have hoperand := Scans.enclosed (UnaryOp.encloses operand) (operand.scans hw.2 level) apart h
    rw [Expr.pieces, List.cons_append]
    refine .unary hoperand ?_
    split
    · exact ⟨_, _, _, rfl, by decide⟩
    · next hencloses =>
      exact Expr.unequal (by simpa [UnaryOp.encloses] using hencloses) level rest
  | .binary op left right line, hw, level, rest, apart, h => by
    have hright := Scans.enclosed (op.enclosesRight right) (right.scans hw.2.2 level) apart h
    have hleft := Scans.enclosed (op.enclosesLeft left) (left.scans hw.2.1 level) apart_space
      (.space (.binary op hright))
    simpa only [Expr.pieces, List.append_assoc, List.cons_append, List.nil_append] using hleft
  | .block body line, hw, level, rest, apart, h => by
    have hbody := Stmt.blockScans hw.2 (level + 1) (.indent level :: .mark .rbrace :: rest)
      (.rbrace apart h)
    simp only [Expr.pieces, List.append_assoc, List.cons_append, List.nil_append]
    exact .opening (by decide) hbody

/-- A statement ends with its line, and therefore scans in front of anything. -/
lemma Stmt.scans : ∀ {s : Stmt}, s.Everywhere .spelled → ∀ (level : Nat) (rest : List Piece),
    Scans rest → Scans (s.pieces level ++ rest)
  | .constDef name ty value line, hw, level, rest, h => by
    have hvalue := Scans.line (value.scans hw.2 level) h
    simp only [Stmt.pieces, List.append_assoc, List.cons_append, List.nil_append]
    exact .keyword (by decide) apart_space (.typed hw.1.1 hw.1.2.1 apart_space (.assign hvalue))
  | .varDef name ty value line, hw, level, rest, h => by
    have hvalue := Scans.line (value.scans hw.2 level) h
    simp only [Stmt.pieces, List.append_assoc, List.cons_append, List.nil_append]
    exact .keyword (by decide) apart_space (.typed hw.1.1 hw.1.2 apart_space (.assign hvalue))
  | .varDecl name ty line, hw, level, rest, h => by
    have hsemi : Scans (.mark .semi :: .newline :: rest) := .opening (by decide) h
    simp only [Stmt.pieces, List.append_assoc, List.cons_append, List.nil_append]
    exact .keyword (by decide) apart_space (.typed hw.1 hw.2.1 (apart_mark (by decide)) hsemi)
  | .assign target value line, hw, level, rest, h => by
    have hvalue := Scans.line (value.scans hw.2 level) h
    simp only [Stmt.pieces, List.append_assoc, List.cons_append, List.nil_append]
    exact .name hw.1 apart_space (.assign hvalue)
  | .print value line, hw, level, rest, h => by
    have hvalue := Scans.line (value.scans hw.2 level) h
    simp only [Stmt.pieces, List.append_assoc, List.cons_append, List.nil_append]
    exact .keyword (by decide) apart_space hvalue
  | .ifElse test thenBlock elseBlock line, hw, level, rest, h => by
    have helse := Stmt.blockScans hw.2.2.2 (level + 1)
      (.indent level :: .mark .rbrace :: .newline :: rest) (.rbrace apart_newline h)
    have hbehind : Scans (.mark .rbrace :: ((if elseBlock.isEmpty then [] else
        [Piece.space, .mark .kwElse, .space, .mark .lbrace, .newline] ++
          Stmt.blockPieces (level + 1) elseBlock ++ [.indent level, .mark .rbrace]) ++
        (.newline :: rest))) := by
      split
      · exact .rbrace apart_newline h
      · simp only [List.append_assoc, List.cons_append, List.nil_append]
        exact .rbrace apart_space (.keyword (by decide) apart_space (.opening (by decide) helse))
    have hthen := Stmt.blockScans hw.2.2.1 (level + 1) _ (.indent level hbehind)
    have htest := test.scans hw.2.1 level (.space :: .mark .lbrace :: .newline :: _) apart_space
      (.opening (by decide) hthen)
    simp only [Stmt.pieces, List.append_assoc, List.cons_append, List.nil_append] at htest ⊢
    exact .keyword (by decide) apart_space htest
  | .whileLoop test body line, hw, level, rest, h => by
    have hbody := Stmt.blockScans hw.2.2 (level + 1)
      (.indent level :: .mark .rbrace :: .newline :: rest) (.rbrace apart_newline h)
    have htest := test.scans hw.2.1 level (.space :: .mark .lbrace :: .newline :: _) apart_space
      (.opening (by decide) hbody)
    simp only [Stmt.pieces, List.append_assoc, List.cons_append, List.nil_append]
    exact .keyword (by decide) apart_space htest
  | .breakLoop line, _, level, rest, h =>
    .keyword (by decide) (apart_mark (by decide)) (.opening (by decide) h)
  | .continueLoop line, _, level, rest, h =>
    .keyword (by decide) (apart_mark (by decide)) (.opening (by decide) h)
  | .expr value, hw, level, rest, h => by
    have hvalue := Scans.line (value.scans hw.2 level) h
    simp only [Stmt.pieces, List.append_assoc, List.cons_append, List.nil_append]
    exact hvalue

lemma Stmt.blockScans : ∀ {body : List Stmt}, Stmt.AllEverywhere .spelled body →
    ∀ (level : Nat) (rest : List Piece), Scans rest → Scans (Stmt.blockPieces level body ++ rest)
  | [], _, level, rest, h => h
  | first :: body, hw, level, rest, h => by
    rw [Stmt.blockPieces, List.append_assoc]
    exact first.scans hw.1 level _ (Stmt.blockScans hw.2 level rest h)

end

end BlockLang
