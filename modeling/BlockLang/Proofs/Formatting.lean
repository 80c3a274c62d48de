import BlockLang.Proofs.Decimal.ReadBack
import BlockLang.Proofs.Grammar.Spelling
import BlockLang.Proofs.Layout.RoundTrip
import BlockLang.Proofs.Machine.Relabelling
import BlockLang.Proofs.Typing.Relabelling

/-!
# Formatting

What the canonical form of a text is worth.  Unless a literal of the text is too large for a float,
the canonical form is the text of a program that is the original one up to its lines, because
what is parsed can be written (`Source.spelled_of_parse`) and the text of a float is read as this
float (`Decimal.ofText?_plain`).  Lines show in faults only, so that checking and running the two
texts gives the same otherwise (`Source.format_keeps_meaning`).

A literal that is too large is written as a word that cannot be read.  The canonical form of a
text is its own canonical form if there is no such literal, and no text of a program at all if
there is one (`Source.format_stable_iff`).
-/

namespace BlockLang

/-! ## Programs that are the same up to their lines -/

lemma Literal.word_eraseLine (value : Literal) : value.eraseLine.word = value.word := by
  cases value <;> rfl

lemma Ident.typeWords_eraseLine (ty : Option Ident) :
    Ident.typeWords (ty.map Ident.eraseLine) = Ident.typeWords ty := by
  cases ty <;> rfl

lemma Expr.precedence?_eraseLines (e : Expr) : e.eraseLines.precedence? = e.precedence? := by
  cases e <;> rfl

mutual

lemma Expr.pieces_eraseLines : ∀ (e : Expr) (level : Nat),
    e.eraseLines.pieces level = e.pieces level
  | .literal value, _ => congrArg (fun word => [word]) value.word_eraseLine
  | .name _, _ => rfl
  | .unary _ operand _, level => by
    have hencloses : UnaryOp.encloses operand.eraseLines = UnaryOp.encloses operand := by
      rw [UnaryOp.encloses, UnaryOp.encloses, operand.precedence?_eraseLines]
    simp only [Expr.eraseLines, Expr.pieces, hencloses, operand.pieces_eraseLines level]
  | .binary op left right _, level => by
    have hleft : op.enclosesLeft left.eraseLines = op.enclosesLeft left := by
      rw [BinOp.enclosesLeft, BinOp.enclosesLeft, left.precedence?_eraseLines]
    have hright : op.enclosesRight right.eraseLines = op.enclosesRight right := by
      rw [BinOp.enclosesRight, BinOp.enclosesRight, right.precedence?_eraseLines]
    simp only [Expr.eraseLines, Expr.pieces, hleft, hright, left.pieces_eraseLines level,
      right.pieces_eraseLines level]
  | .block body _, level => by
    simp only [Expr.eraseLines, Expr.pieces, Stmt.blockPieces_eraseAllLines body (level + 1)]

lemma Stmt.pieces_eraseLines : ∀ (s : Stmt) (level : Nat),
    s.eraseLines.pieces level = s.pieces level
  | .constDef _ _ value _, level | .varDef _ _ value _, level => by
    simp only [Stmt.eraseLines, Stmt.pieces, Ident.typeWords_eraseLine,
      value.pieces_eraseLines level]
    rfl
  | .varDecl _ _ _, _ => by
    simp only [Stmt.eraseLines, Stmt.pieces, Ident.typeWords_eraseLine]
    rfl
  | .assign _ value _, level => by
    simp only [Stmt.eraseLines, Stmt.pieces, value.pieces_eraseLines level]
    rfl
  | .print value _, level | .expr value, level => by
    simp only [Stmt.eraseLines, Stmt.pieces, value.pieces_eraseLines level]
  | .ifElse test thenBlock elseBlock _, level => by
    have hempty : (Stmt.eraseAllLines elseBlock).isEmpty = elseBlock.isEmpty := by
      cases elseBlock <;> rfl
    simp only [Stmt.eraseLines, Stmt.pieces, test.pieces_eraseLines level, hempty,
      Stmt.blockPieces_eraseAllLines thenBlock (level + 1),
      Stmt.blockPieces_eraseAllLines elseBlock (level + 1)]
  | .whileLoop test body _, level => by
    simp only [Stmt.eraseLines, Stmt.pieces, test.pieces_eraseLines level,
      Stmt.blockPieces_eraseAllLines body (level + 1)]
  | .breakLoop _, _ | .continueLoop _, _ => rfl

lemma Stmt.blockPieces_eraseAllLines : ∀ (body : List Stmt) (level : Nat),
    Stmt.blockPieces level (Stmt.eraseAllLines body) = Stmt.blockPieces level body
  | [], _ => rfl
  | first :: rest, level => by
    rw [Stmt.eraseAllLines, Stmt.blockPieces, Stmt.blockPieces, first.pieces_eraseLines level,
      Stmt.blockPieces_eraseAllLines rest level]

end

namespace Program

variable {program program' : Program}

/-- The canonical form does not depend on lines. -/
lemma pieces_congr (h : program.eraseLines = program'.eraseLines) :
    program.pieces = program'.pieces := by
  have herased : ∀ p : Program, p.eraseLines.pieces = p.pieces := fun p =>
    Stmt.blockPieces_eraseAllLines p.body 0
  rw [← herased program, h, herased program']

lemma format_congr (h : program.eraseLines = program'.eraseLines) :
    program.format = program'.format :=
  congrArg Piece.render (pieces_congr h)

/-- The checker finds the same faults on other lines. -/
lemma check_congr (h : program.eraseLines = program'.eraseLines) :
    program.check.mapError Fault.eraseLines = program'.check.mapError Fault.eraseLines := by
  have herased : ∀ p : Program, p.check.mapError Fault.eraseLines = p.eraseLines.check := by
    intro p
    rw [← p.relabel_erasing, p.check_relabel]
    rfl
  rw [herased program, h, herased program']

/-- All floats that can be written are read back. -/
lemma WellFormed.floatsReadBack (hw : program.WellFormed) : program.FloatsReadBack :=
  Stmt.AllEverywhere.mono NodeCondition.wellFormed_implies_floatsReadBack hw

end Program

/-- An outcome without the lines of its fault. -/
def Outcome.eraseLines {α : Type} : Outcome Fault α → Outcome Fault α :=
  Outcome.mapFault Fault.eraseLines

/-- Two results of a run that differ in the lines of faults only. -/
structure Alike {σ : Type} (result result' : Outcome Fault Unit × σ) : Prop where
  outcome_eq : result.1.eraseLines = result'.1.eraseLines
  output_eq : result.2 = result'.2

/-- A run ends in the same way on other lines. -/
lemma Program.run_congr {program program' : Program}
    (h : program.eraseLines = program'.eraseLines) {σ : Type} [Sink σ] (bound : Nat) (out : σ) :
    Alike (program.run bound out) (program'.run bound out) := by
  have hrun := program.run_relabel .erasing bound out
  have hrun' := program'.run_relabel .erasing bound out
  rw [program.relabel_erasing, h] at hrun
  rw [program'.relabel_erasing] at hrun'
  obtain ⟨houtcome, houtput⟩ := Prod.mk.inj (hrun.symm.trans hrun')
  exact ⟨houtcome, houtput⟩

namespace Source

variable {source source' : String} {program program' : Program}

/-! ## Texts of programs that are the same up to their lines -/

/-- How the check of a text ends, without its program. -/
def verdict (source : String) : Outcome Fault Unit := do
  let _ ← check source
  return ()

lemma verdict_of_parse (h : parse source = .done program) :
    verdict source = .ofExcept program.check := by
  rw [verdict, check, h]
  simp only [Outcome.done_bind]
  cases program.check <;> rfl

lemma verdict_congr (h : parse source = .done program) (h' : parse source' = .done program')
    (hsame : program.eraseLines = program'.eraseLines) :
    (verdict source).eraseLines = (verdict source').eraseLines := by
  have hcheck := Program.check_congr hsame
  rw [verdict_of_parse h, verdict_of_parse h']
  have herased : ∀ result : Except Fault Unit, (Outcome.ofExcept result).eraseLines =
      .ofExcept (result.mapError Fault.eraseLines) := by
    intro result
    cases result <;> rfl
  rw [herased, herased, hcheck]

/-- A text is run if its check succeeds, and otherwise ends with the fault of the check. -/
lemma run_of_parse (h : parse source = .done program) {σ : Type} [Sink σ] (out : σ) :
    run source out =
      match program.check with
      | .ok () => program.run loopBound out
      | .error fault => (.failed fault, out) := by
  rw [run, check, h]
  simp only [Outcome.done_bind]
  cases program.check <;> rfl

lemma run_congr (h : parse source = .done program) (h' : parse source' = .done program')
    (hsame : program.eraseLines = program'.eraseLines) {σ : Type} [Sink σ] (out : σ) :
    Alike (run source out) (run source' out) := by
  have hcheck := Program.check_congr hsame
  rw [run_of_parse h, run_of_parse h']
  cases hresult : program.check <;> cases hresult' : program'.check <;>
    rw [hresult, hresult'] at hcheck
  case ok.ok => exact Program.run_congr hsame loopBound out
  case error.error fault fault' =>
    exact ⟨congrArg Outcome.failed (Except.error.inj hcheck), rfl⟩
  all_goals cases hcheck

lemma runUnchecked_congr (h : parse source = .done program)
    (h' : parse source' = .done program') (hsame : program.eraseLines = program'.eraseLines)
    {σ : Type} [Sink σ] (out : σ) : Alike (runUnchecked source out) (runUnchecked source' out) := by
  rw [runUnchecked, runUnchecked, h, h']
  exact Program.run_congr hsame loopBound out

/-! ## Reading the canonical form of a text -/

lemma format_of_parse (h : parse source = .done program) :
    format source = .done program.format := by
  rw [format, h]
  rfl

/-- What can be formatted can be parsed. -/
lemma parse_of_format {text : String} (h : format source = .done text) :
    ∃ program, parse source = .done program := by
  cases hparse : parse source with
  | done program => exact ⟨program, rfl⟩
  | failed fault =>
    rw [format, hparse] at h
    cases h
  | unfinished =>
    rw [format, hparse] at h
    cases h

/-- The canonical form of a text without infinite floats is the text of the same program. -/
lemma parse_format_of_fits (h : parse source = .done program) (hfits : program.FloatsFit) :
    ∃ formatted, parse program.format = .done formatted ∧
      formatted.eraseLines = program.eraseLines := by
  have hw := Program.wellFormed_iff.mpr ⟨spelled_of_parse h, hfits⟩
  obtain ⟨ts, last, hwords, htokens⟩ := tokens_format hw
  exact parse_of_words hw hw.floatsReadBack hwords htokens

/-- The canonical form of a program with an infinite float cannot be read. -/
lemma not_parse_format_of_infinite (h : program.Spelled) (hlarge : ¬ program.FloatsFit)
    (parsed : Program) : parse program.format ≠ .done parsed := by
  intro hparse
  obtain ⟨d, line, htokens, -⟩ := derivation_of_parse hparse
  obtain ⟨ts, last, hwords, hread⟩ | ⟨_, fault, hfault⟩ := tokens_format_or_fault h
  · have hmem : Piece.infinity ∈ Piece.words program.pieces := by
      by_contra hfits
      exact hlarge ((Stmt.fits_blockPieces h 0).mp hfits)
    rw [← hwords] at hmem
    obtain ⟨token, htoken, hspelled⟩ := List.mem_map.mp hmem
    obtain ⟨hkind, htext⟩ := Prod.mk.inj hspelled
    have hpointed := (wellSpelled_of_tokens hread token htoken).isPointed hkind
    rw [htext] at hpointed
    exact Decimal.not_isPointed_infinity hpointed
  · rw [hfault] at htokens
    cases htokens

/-! ## A text that prints a float -/

section

open Grammar Piece

/-- The tokens of a text that prints a float. -/
lemma tokens_print {text : String} (hpointed : Decimal.IsPointed text) :
    ∃ (keyword : Word .kwPrint) (line : Nat) (semi : Word .semi) (last : Nat),
      tokens ("print\n" ++ text ++ ";") =
        .ok [keyword.1, ⟨.float, text, line⟩, semi.1, .endOfInput last] := by
  have hsource : "print\n" ++ text ++ ";" =
      render [.mark .kwPrint, .newline, .word .float text, .mark .semi] := by
    rw [← String.toList_inj]
    simp [render, Piece.text, mark, TokenKind.spelling?]
  have hscans : Scans [.mark .kwPrint, .newline, .word .float text, .mark .semi] := by
    obtain ⟨whole, fraction, rfl, hne, hwhole, hfraction⟩ := hpointed
    exact .keyword (by decide) apart_newline (.word (by decide)
      (reads_float hne hwhole hfraction (apart_mark (by decide))) (.opening (by decide) trivial))
  have hfits : Fits [.mark .kwPrint, .newline, .word .float text, .mark .semi] := by
    have hne : (TokenKind.float, text) ≠ infinity := by
      rintro ⟨⟩
      exact Decimal.not_isPointed_infinity hpointed
    simp [hne]
  obtain ⟨ts, last, hwords, htokens⟩ | ⟨hinfinite, _⟩ := tokens_render_or_fault hscans
  · have hspells : Spells [.mark .kwPrint, .newline, .word .float text, .mark .semi] ts := hwords
    obtain ⟨keyword, _, rfl, _, hbehind⟩ := hspells.mark (by decide)
    obtain ⟨line, _, rfl, hend⟩ := hbehind.newline.word
    obtain ⟨semi, _, rfl, _, hnil⟩ := hend.mark (by decide)
    obtain rfl := hnil.eq_nil
    exact ⟨keyword, line, semi, last, hsource ▸ htokens⟩
  · exact absurd hfits hinfinite

/-- A text that prints a float is parsed. -/
lemma parse_print {text : String} {x : Float} (hpointed : Decimal.IsPointed text)
    (hx : Decimal.ofText? text = some x) :
    ∃ line line', parse ("print\n" ++ text ++ ";") =
      .done ⟨[.print (.literal (.float x line)) line']⟩ := by
  obtain ⟨keyword, line, semi, last, htokens⟩ := tokens_print hpointed
  have hvalue : (⟨.float, text, line⟩ : Token).HasValue := by
    simp [Token.HasValue, Parser.literalOf, hx]
  obtain ⟨d, hd, htree⟩ := (Tier.factor (.primary (.literal
    ⟨⟨.float, text, line⟩, by simp⟩))).exists_raise (Nat.zero_le 5)
  have hword : d.tokens = [⟨.float, text, line⟩] := hd
  have hliteral : d.tree = .literal (.float x line) := by
    rw [htree]
    simp [Tier.tree, Factor.tree, Primary.tree, literalValue, hx]
  have hread : tokens ("print\n" ++ text ++ ";") =
      .ok ((Statements.cons (.print keyword d semi) .nil).tokens ++ [.endOfInput last]) := by
    rw [htokens]
    simp [Statements.tokens, Statement.tokens, hword]
  have legible : Legible (Statements.cons (.print keyword d semi) .nil).tokens := by
    simp [Statements.tokens, Statement.tokens, hword, hvalue,
      Parser.hasValue_word keyword (by decide), Parser.hasValue_word semi (by decide)]
  have declared : (⟨[.print d.tree keyword.1.line]⟩ : Program).Declared := by
    rw [hliteral]
    exact ⟨⟨trivial, trivial⟩, trivial⟩
  have hparse := parse_of_derivation hread legible declared
  simp only [Statements.tree, Statement.tree, hliteral] at hparse
  exact ⟨line, keyword.1.line, hparse⟩

lemma parse_half : ∃ program, parse "print\n1.5;" = .done program ∧ program.FloatsFit := by
  have hne : ['1'] ≠ [] := List.cons_ne_nil _ _
  have hwhole : ∀ c ∈ ['1'], c.isDigit = true := List.forall_mem_singleton.mpr (by decide)
  have hfraction : ∀ c ∈ ['5'], c.isDigit = true := List.forall_mem_singleton.mpr (by decide)
  have hsource : "print\n1.5;" = "print\n" ++ String.ofList (['1'] ++ '.' :: ['5']) ++ ";" := by
    decide
  obtain ⟨line, line', hparse⟩ := parse_print ⟨_, _, rfl, hne, hwhole, hfraction⟩
    (Decimal.ofText?_pointed hne hwhole hfraction)
  rw [hsource]
  refine ⟨_, hparse, ⟨trivial, fun negative => ?_⟩, trivial⟩
  cases negative <;> decide +kernel

end

/-! ## Formatting keeps the meaning -/

/-- Formatting keeps the meaning of a text in which no literal is too large for a float.  The
canonical form is a text that is checked with the same result, and runs of the two, checked or
unchecked, write the same and end in the same way, all of this up to the lines in faults.  Runs of
the two programs agree in this sense also for every bound on the repetitions of loops. -/
theorem format_keeps_meaning (h : parse source = .done program) (hfits : program.FloatsFit) :
    ∃ text formatted, format source = .done text ∧ parse text = .done formatted ∧
      (verdict text).eraseLines = (verdict source).eraseLines ∧
      ∀ {σ : Type} [Sink σ] (out : σ),
        Alike (run text out) (run source out) ∧
        Alike (runUnchecked text out) (runUnchecked source out) ∧
        ∀ bound : Nat, Alike (formatted.run bound out) (program.run bound out) := by
  obtain ⟨formatted, hparse, hsame⟩ := parse_format_of_fits h hfits
  refine ⟨program.format, formatted, format_of_parse h, hparse, verdict_congr hparse h hsame, ?_⟩
  intro σ _ out
  exact ⟨run_congr hparse h hsame out, runUnchecked_congr hparse h hsame out,
    fun bound => Program.run_congr hsame bound out⟩

/-- Formatting moves the number of this text to the line before. -/
theorem format_keeps_meaning_half :
    ∃ program text formatted, parse "print\n1.5;" = .done program ∧ program.FloatsFit ∧
      format "print\n1.5;" = .done text ∧ parse text = .done formatted ∧
      (verdict text).eraseLines = (verdict "print\n1.5;").eraseLines ∧
      Alike (run text Buffer.unbounded) (run "print\n1.5;" Buffer.unbounded) ∧
      Alike (runUnchecked text Buffer.unbounded) (runUnchecked "print\n1.5;" Buffer.unbounded) ∧
      ∀ bound : Nat, Alike (formatted.run bound Buffer.unbounded)
        (program.run bound Buffer.unbounded) := by
  obtain ⟨program, hparse, hfits⟩ := parse_half
  obtain ⟨text, formatted, hformat, hagain, hverdict, hruns⟩ := format_keeps_meaning hparse hfits
  exact ⟨program, text, formatted, hparse, hfits, hformat, hagain, hverdict,
    hruns Buffer.unbounded⟩

/-! ## Formatting twice -/

/-- The canonical form of a text can be read, and is its own canonical form, if and only if no
literal of the text is too large for a float. -/
theorem format_stable_iff (h : parse source = .done program) :
    ∃ text, format source = .done text ∧
      ((∃ formatted, parse text = .done formatted) ↔ program.FloatsFit) ∧
      (format text = .done text ↔ program.FloatsFit) := by
  refine ⟨program.format, format_of_parse h, ⟨?_, ?_⟩, ⟨?_, ?_⟩⟩
  · rintro ⟨formatted, hparse⟩
    by_contra hlarge
    exact not_parse_format_of_infinite (spelled_of_parse h) hlarge formatted hparse
  · intro hfits
    obtain ⟨formatted, hparse, -⟩ := parse_format_of_fits h hfits
    exact ⟨formatted, hparse⟩
  · intro hformat
    by_contra hlarge
    obtain ⟨formatted, hparse⟩ := parse_of_format hformat
    exact not_parse_format_of_infinite (spelled_of_parse h) hlarge formatted hparse
  · intro hfits
    obtain ⟨formatted, hparse, hsame⟩ := parse_format_of_fits h hfits
    rw [format_of_parse hparse, Program.format_congr hsame]

/-- A canonical form that stays. -/
theorem format_stable_half :
    ∃ text, format "print\n1.5;" = .done text ∧ format text = .done text := by
  obtain ⟨program, hparse, hfits⟩ := parse_half
  obtain ⟨text, hformat, -, hstable⟩ := format_stable_iff hparse
  exact ⟨text, hformat, hstable.mpr hfits⟩

/-- The canonical form of a text with the literal `10 ^ 309` cannot be read. -/
theorem format_unstable_large :
    ∃ program text, parse ("print\n" ++
        String.ofList (('1' :: List.replicate 309 '0') ++ '.' :: ['0']) ++ ";") = .done program ∧
      format ("print\n" ++
        String.ofList (('1' :: List.replicate 309 '0') ++ '.' :: ['0']) ++ ";") = .done text ∧
      (∀ formatted, parse text ≠ .done formatted) ∧ format text ≠ .done text := by
  have hne : '1' :: List.replicate 309 '0' ≠ [] := List.cons_ne_nil _ _
  have hwhole : ∀ c ∈ '1' :: List.replicate 309 '0', c.isDigit = true := by
    refine List.forall_mem_cons.mpr ⟨by decide, fun c hc => ?_⟩
    exact Decimal.isDigit_of_mem_replicate hc
  have hfraction : ∀ c ∈ ['0'], c.isDigit = true := List.forall_mem_singleton.mpr (by decide)
  obtain ⟨line, line', hparse⟩ := parse_print ⟨_, _, rfl, hne, hwhole, hfraction⟩
    (Decimal.ofText?_pointed hne hwhole hfraction)
  have hinfinite : Decimal.Parts.ofFloat
      (Decimal.ofPlaces ('1' :: List.replicate 309 '0') ['0'] 0) = .infinite false := by
    decide +kernel
  have hunreadable := not_parse_format_of_infinite (spelled_of_parse hparse)
    fun hfits => hfits.1.2 false hinfinite
  refine ⟨_, _, hparse, format_of_parse hparse, hunreadable, fun hformat => ?_⟩
  obtain ⟨formatted, hagain⟩ := parse_of_format hformat
  exact hunreadable formatted hagain

end Source

end BlockLang
