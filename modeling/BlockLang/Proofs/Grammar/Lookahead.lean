import BlockLang.Proofs.Grammar.Lines
import BlockLang.Proofs.Grammar.Parsing
import BlockLang.Proofs.Grammar.Progress
import BlockLang.Proofs.Grammar.Reading

/-!
# What a parser has looked at

The parser looks at the token on which it stands and at nothing behind it.  So the tokens that it
has passed and the one on which it stops decide how reading ends: from any other parser in front of
these same tokens the same activity ends in the same way, whatever follows, be it a fault of the
lexer (`Parser.Decides`).  An activity that is put together from steps of this kind is of this kind
(`Decides.bind`), so that each function of the grammar is, by recursion on its depth.

The depth that bounds the recursion hangs on how much text there is, which differs from parser to
parser.  That is why two activities are compared: one bounded by a depth and the same one with more
of it.  The two can differ only where the first is stopped.

`Source.syntax_fault_decided` says it of texts.
-/

namespace BlockLang

open Grammar

/-- If a fault refuses a token, it shows the text of this token and its line. -/
def Fault.Describes (fault : Fault) (token : Token) : Prop :=
  ∀ expected got line, fault = .unexpectedToken expected got line →
    got = token.describe ∧ line = token.line

/-- What ends without a fault has none to describe. -/
lemma describes_of_done {α : Type} {a : α} {token : Token} (fault : Fault)
    (h : (.done a : Outcome Fault α) = .failed fault) : fault.Describes token :=
  nomatch h

namespace Parser

variable {α β : Type} {x y : Reading α} {f g : α → Reading β} {p q : Parser}

/-- How an activity has ended in front of the items of `p`, and what this says about `y`. -/
inductive Decided (y : Reading α) (p : Parser) : Outcome Fault α × Parser → Prop
  /-- The depth was not enough. -/
  | unfinished (p' : Parser) : Decided y p (.unfinished, p')
  /-- A fault of the lexer was met, which `y` meets too. -/
  | lexical {fault : Fault} {p' : Parser} (given : .error fault ∈ p.items)
    (same : y.run p = (.failed fault, p')) : Decided y p (.failed fault, p')
  /-- Tokens were passed, and `y` ends in the same way in front of them and the token on which the
  parser stands now, whatever there is behind it. -/
  | read (ts : List Token) {outcome : Outcome Fault α} {p' : Parser} (passed : p = before ts p')
    (describes : ∀ fault, outcome = .failed fault → fault.Describes p'.current)
    (same : ∀ q : Parser, q.current = p'.current → y.run (before ts q) = (outcome, q)) :
    Decided y p (outcome, p')

/-- How `x` ends in front of some items decides how `y` ends. -/
def Decides (x y : Reading α) : Prop :=
  ∀ p : Parser, p.Ends → Decided y p (x.run p)

lemma Decided.same_run {outcome : Outcome Fault α} {p' : Parser}
    (h : Decided y p (outcome, p')) (hfinished : outcome ≠ .unfinished) :
    y.run p = (outcome, p') := by
  cases h with
  | unfinished _ => exact absurd rfl hfinished
  | lexical _ same => exact same
  | read _ passed _ same =>
    rw [passed]
    exact same p' rfl

/-! ## Steps -/

/-- What does not pass a token is decided by the one that the parser stands on. -/
lemma decides_of_stays (outcome : Token → Outcome Fault α)
    (hdescribes : ∀ token fault, outcome token = .failed fault → fault.Describes token)
    (hx : ∀ p, x.run p = (outcome p.current, p)) : Decides x x := by
  intro p _
  rw [hx]
  refine .read [] rfl (hdescribes p.current) fun q hq => ?_
  rw [before_nil, hx, hq]

lemma decides_pure (a : α) : Decides (pure a) (pure a) :=
  decides_of_stays (fun _ => .done a) (fun _ => describes_of_done) fun _ => rfl

lemma decides_stop : Decides (Attempt.stop : Reading α) y :=
  fun p _ => .unfinished p

/-- A fault that refuses no token says nothing about the one that the parser stands on. -/
lemma decides_fail {fault : Fault} (h : ∀ token, fault.Describes token) :
    Decides (Attempt.fail fault : Reading α) (Attempt.fail fault) := by
  refine decides_of_stays (fun _ => .failed fault) ?_ fun _ => rfl
  intro token fault' heq
  cases heq
  exact h token

lemma Decides.bind (h : Decides x y) (h' : ∀ a, Decides (f a) (g a)) :
    Decides (x >>= f) (y >>= g) := by
  intro p hp
  have hfirst := h p hp
  rw [Attempt.run_bind]
  generalize x.run p = ending at hfirst
  cases hfirst with
  | unfinished p' => exact .unfinished p'
  | lexical given same => exact .lexical given (by rw [Attempt.run_bind, same])
  | @read ts outcome p' passed describes same =>
    cases outcome with
    | unfinished => exact .unfinished p'
    | failed fault =>
      refine .read ts passed (fun fault' heq => ?_) fun q hq => by rw [Attempt.run_bind, same q hq]
      cases heq
      exact describes fault rfl
    | done a =>
      subst passed
      have hsecond := h' a p' hp.behind
      dsimp only
      generalize (f a).run p' = ending at hsecond
      cases hsecond with
      | unfinished p'' => exact .unfinished p''
      | lexical given same' =>
        refine .lexical ?_ (by rw [Attempt.run_bind, same p' rfl]; exact same')
        rw [items_before]
        exact List.mem_append_right _ given
      | @read ts' outcome p'' passed' describes' same' =>
        subst passed'
        refine .read (ts ++ ts') before_append.symm describes' fun q hq => ?_
        -- What `y` has read so far depends only on the token that comes next.
        have hcurrent : (before ts' q).current = (before ts' p'').current := by
          cases ts' with
          | nil => exact hq
          | cons _ _ => rfl
        rw [before_append, Attempt.run_bind, same _ hcurrent]
        exact same' q hq

/-! ## Tokens -/

lemma decides_kind : Decides kind kind :=
  decides_of_stays (fun token => .done token.kind) (fun _ => describes_of_done) fun _ => rfl

lemma decides_unexpected (expected : String) :
    Decides (unexpected expected : Reading α) (unexpected expected) := by
  refine decides_of_stays
    (fun token => .failed (.unexpectedToken expected token.describe token.line))
    ?_ fun _ => rfl
  intro token fault heq
  cases heq
  intro expected' got line heq
  cases heq
  exact ⟨rfl, rfl⟩

/-- Only at the end of the input the parser stays, and behind any other token it looks at the one
that follows. -/
lemma decides_advance : Decides advance advance := by
  intro p hp
  by_cases hend : p.current.kind = .endOfInput
  · have hstays : ∀ q : Parser, q.current = p.current →
        advance.run q = (.done p.current, q) := by
      intro q hq
      rw [Attempt.run, advance, hq, if_pos hend]
    rw [hstays p rfl]
    exact .read [] rfl describes_of_done hstays
  · obtain ⟨current, pending⟩ := p
    have hnext : ∀ (next : Token) (rest : List (Except Fault Token)),
        Decided advance ⟨current, .ok next :: rest⟩
          (advance.run ⟨current, .ok next :: rest⟩) := by
      intro next rest
      have hpasses : ∀ q : Parser, advance.run (before [current] q) = (.done current, q) :=
        fun _ => run_advance_before hend
      rw [show (⟨current, .ok next :: rest⟩ : Parser) = before [current] ⟨next, rest⟩ from rfl,
        hpasses]
      exact .read [current] rfl describes_of_done fun q _ => hpasses q
    cases hp with
    | endOfInput last => exact absurd last hend
    | token _ rest =>
      cases rest with
      | endOfInput _ => exact hnext _ _
      | token _ _ => exact hnext _ _
      | fault fault =>
        have hmeets : advance.run ⟨current, [.error fault]⟩ = (.failed fault, ⟨current, []⟩) := by
          rw [Attempt.run, advance, if_neg hend]
        rw [hmeets]
        exact .lexical (List.mem_cons_of_mem _ List.mem_cons_self) hmeets

lemma decides_expect (wanted : TokenKind) : Decides (expect wanted) (expect wanted) := by
  refine decides_kind.bind fun next => ?_
  split
  · exact decides_advance
  · exact decides_unexpected _

/-- What has been read is given behind a token that has to follow. -/
lemma decides_behind (wanted : TokenKind) (a : α) :
    Decides (expect wanted >>= fun _ => pure a) (expect wanted >>= fun _ => pure a) :=
  (decides_expect wanted).bind fun _ => decides_pure a

lemma decides_identifier : Decides identifier identifier :=
  (decides_expect .name).bind fun _ => decides_pure _

lemma decides_identifier? : Decides identifier? identifier? := by
  refine decides_kind.bind fun next => ?_
  split
  · exact decides_identifier.bind fun _ => decides_pure _
  · exact decides_pure none

lemma decides_literalOf (token : Token) : Decides (Attempt.ofExcept (literalOf token))
    (Attempt.ofExcept (literalOf token)) := by
  cases hvalue : literalOf token with
  | ok value => exact decides_pure value
  | error fault =>
    refine decides_fail fun token' expected got line heq => ?_
    obtain ⟨kind, _, hfault⟩ := fault_of_literalOf hvalue
    rw [hfault] at heq
    cases heq

lemma decides_literal : Decides literal literal :=
  decides_advance.bind fun token => (decides_literalOf token).bind fun _ => decides_pure _

/-- Of the parser itself only the line is read. -/
lemma decides_get_bind {f g : Nat → Reading β} (h : ∀ line, Decides (f line) (g line)) :
    Decides (Attempt.get >>= fun p => f p.current.line)
      (Attempt.get >>= fun p => g p.current.line) :=
  have hline : Decides (fun p : Parser => (.done p.current.line, p))
      (fun p : Parser => (.done p.current.line, p)) :=
    decides_of_stays (fun token => .done token.line) (fun _ => describes_of_done) fun _ => rfl
  hline.bind h

/-! ## Phrases -/

mutual

theorem decides_statements : ∀ {depth depth' : Nat} (inBlock : Bool), depth ≤ depth' →
    Decides (statements depth inBlock) (statements depth' inBlock)
  | 0, _, _, _ => decides_stop
  | depth + 1, depth' + 1, inBlock, h => by
    replace h := Nat.le_of_succ_le_succ h
    rw [statements, statements]
    refine decides_kind.bind fun next => ?_
    split
    · exact decides_pure []
    · exact (decides_statement h).bind fun first =>
        (decides_statements inBlock h).bind fun rest => decides_pure _

theorem decides_block : ∀ {depth depth' : Nat}, depth ≤ depth' →
    Decides (block depth) (block depth')
  | 0, _, _ => decides_stop
  | depth + 1, depth' + 1, h => by
    rw [block, block]
    exact (decides_expect .lbrace).bind fun _ =>
      (decides_statements true (Nat.le_of_succ_le_succ h)).bind fun body =>
      decides_behind .rbrace body

theorem decides_statement : ∀ {depth depth' : Nat}, depth ≤ depth' →
    Decides (statement depth) (statement depth')
  | 0, _, _ => decides_stop
  | depth + 1, depth' + 1, h => by
    replace h := Nat.le_of_succ_le_succ h
    have value := decides_expression 0 h
    have body := decides_block h
    have plain : Decides (plainStatement depth) (plainStatement depth') := by
      refine value.bind fun first => decides_kind.bind fun next => ?_
      split
      · split
        · exact decides_advance.bind fun sign => value.bind fun e => decides_behind .semi _
        · exact decides_unexpected _
      · exact decides_behind .semi _
    rw [statement, statement]
    refine decides_kind.bind fun next => ?_
    cases next with
    | kwPrint =>
      exact decides_advance.bind fun start => value.bind fun e => decides_behind .semi _
    | kwVar =>
      refine decides_advance.bind fun start => decides_identifier.bind fun name =>
        decides_identifier?.bind fun ty => decides_kind.bind fun next => ?_
      split
      · exact decides_advance.bind fun _ => value.bind fun e => decides_behind .semi _
      · split
        · exact decides_fail nofun
        · exact decides_behind .semi _
    | kwConst =>
      refine decides_advance.bind fun start => decides_identifier.bind fun name =>
        decides_identifier?.bind fun ty => (decides_expect .assign).bind fun _ =>
        value.bind fun e => ?_
      split
      · exact decides_behind .semi _
      · exact decides_fail nofun
    | kwIf =>
      refine decides_advance.bind fun start => value.bind fun test => body.bind fun thenBlock =>
        decides_kind.bind fun next => ?_
      split
      · exact decides_advance.bind fun _ => body.bind fun elseBlock => decides_pure _
      · exact decides_pure _
    | kwWhile =>
      exact decides_advance.bind fun start => value.bind fun test => body.bind fun inner =>
        decides_pure _
    | kwBreak | kwContinue => exact decides_advance.bind fun start => decides_behind .semi _
    | _ => exact plain

theorem decides_expression : ∀ {depth depth' : Nat} (least : Nat), depth ≤ depth' →
    Decides (expression depth least) (expression depth' least)
  | 0, _, _, _ => decides_stop
  | depth + 1, depth' + 1, least, h => by
    replace h := Nat.le_of_succ_le_succ h
    rw [expression, expression]
    exact (decides_unary h).bind fun left => decides_operators least left h

theorem decides_operators : ∀ {depth depth' : Nat} (least : Nat) (left : Expr), depth ≤ depth' →
    Decides (operators depth least left) (operators depth' least left)
  | 0, _, _, _, _ => decides_stop
  | depth + 1, depth' + 1, least, left, h => by
    replace h := Nat.le_of_succ_le_succ h
    rw [operators, operators]
    refine decides_kind.bind fun next => ?_
    cases BinOp.ofToken? next with
    | none => exact decides_pure left
    | some op =>
      dsimp only
      split
      · exact decides_pure left
      · exact decides_advance.bind fun sign =>
          (decides_expression (op.precedence + 1) h).bind fun right =>
          decides_operators least _ h

theorem decides_unary : ∀ {depth depth' : Nat}, depth ≤ depth' →
    Decides (unary depth) (unary depth')
  | 0, _, _ => decides_stop
  | depth + 1, depth' + 1, h => by
    replace h := Nat.le_of_succ_le_succ h
    rw [unary, unary]
    refine decides_kind.bind fun next => ?_
    cases UnaryOp.ofToken? next with
    | none => exact decides_primary h
    | some op =>
      exact decides_advance.bind fun sign => (decides_unary h).bind fun operand => decides_pure _

theorem decides_primary : ∀ {depth depth' : Nat}, depth ≤ depth' →
    Decides (primary depth) (primary depth')
  | 0, _, _ => decides_stop
  | depth + 1, depth' + 1, h => by
    replace h := Nat.le_of_succ_le_succ h
    rw [primary, primary]
    refine decides_kind.bind fun next => ?_
    cases next with
    | integer | float | char | kwTrue | kwFalse => exact decides_literal
    | name => exact decides_identifier.bind fun _ => decides_pure _
    | lparen =>
      exact decides_advance.bind fun _ => (decides_expression 0 h).bind fun inner =>
        decides_behind .rparen inner
    | lbrace =>
      exact decides_get_bind fun line => (decides_block h).bind fun body =>
        decides_pure (Expr.block body line)
    | _ => exact decides_unexpected "expression"

end

/-- A program, read to a certain depth. -/
def programWithin (depth : Nat) : Reading Program := do
  let body ← statements depth false
  return ⟨body⟩

lemma run_program : program.run p = (programWithin p.depth).run p := by
  rw [program, programWithin, Attempt.run_bind, Attempt.run_get]

lemma decides_programWithin {depth depth' : Nat} (h : depth ≤ depth') :
    Decides (programWithin depth) (programWithin depth') :=
  (decides_statements false h).bind fun _ => decides_pure _

/-- If reading fails with a fault that the lexer has not given, it has passed some tokens, and from
every parser in front of the same tokens and the same one behind them it fails like this. -/
lemma exists_passed_of_program {fault : Fault} (hp : p.Ends) (hgiven : .error fault ∉ p.items)
    (hrun : program.run p = (.failed fault, q)) :
    ∃ passed, p = before passed q ∧ fault.Describes q.current ∧
      ∀ r : Parser, (before passed r).Ends → r.current = q.current →
        program.run (before passed r) = (.failed fault, r) := by
  rw [run_program] at hrun
  generalize p.depth = depth at hrun
  have hdecided := decides_programWithin (le_refl depth) p hp
  rw [hrun] at hdecided
  cases hdecided with
  | lexical given _ => exact absurd given hgiven
  | @read passed _ _ hpassed describes same =>
    refine ⟨passed, hpassed, describes fault rfl, fun r hends hr => ?_⟩
    have hsame := same r hr
    generalize before passed r = p' at hends hsame ⊢
    -- The other parser may allow more depth or less, so both are taken to the greater one.
    have hgreater := (decides_programWithin (Nat.le_max_left depth p'.depth) p' hends)
    rw [hsame] at hgreater
    have hown := decides_programWithin (Nat.le_max_right depth p'.depth) p' hends
    have hfinished := run_program_ne_unfinished p'
    rw [run_program] at hfinished ⊢
    exact (hown.same_run hfinished).symm.trans (hgreater.same_run nofun)

/-! ## Parsers for texts -/

variable {source : String}

lemma items_of_ofLexer (h : ofLexer (.ofString source) = .ok p) :
    p.items = (Lexer.ofString source).items := by
  rw [ofLexer] at h
  split at h
  · next hnil => exact absurd hnil (Lexer.items_ofString_ne_nil source)
  · next heq =>
    cases h
    exact heq.symm
  · cases h

lemma ends_of_ofLexer (h : ofLexer (.ofString source) = .ok p) : p.Ends := by
  obtain ⟨ts, hts, ⟨line, _, hstart⟩ | ⟨fault, _, hitems⟩⟩ := ofLexer_ofString source
  · obtain rfl := Except.ok.inj (h.symm.trans hstart)
    rw [Ends, items_before]
    exact .append hts (.endOfInput rfl)
  · rw [Ends, hitems p h]
    exact .append hts (.fault fault)

/-- A parser for a text that begins with some tokens is in front of them. -/
lemma ofLexer_of_items {passed : List Token} (h : (Lexer.ofString source).items =
    passed.map .ok ++ q.items) : ofLexer (.ofString source) = .ok (before passed q) := by
  rw [ofLexer, h]
  cases passed <;> rfl

lemma before_injective {passed passed' : List Token} (h : before passed q = before passed' q) :
    passed = passed' := by
  have hitems := congrArg items h
  rw [items_before, items_before] at hitems
  exact (List.map_inj_right fun _ _ => Except.ok.inj).mp (List.append_cancel_right hitems)

/-- What the lexer gives for a text that it refuses: tokens, and behind them the fault. -/
lemma items_of_tokens_eq_error {fault : Fault} (h : Source.tokens source = .error fault) :
    ∃ ts : List Token, (Lexer.ofString source).items = ts.map .ok ++ [.error fault] := by
  obtain ⟨ts, _, hstop⟩ :=
    Cursor.drainWithin_items _ (Cursor.ofString source) (Nat.lt_succ_self _)
  refine ⟨ts, ?_⟩
  obtain ⟨line, _, hfault⟩ | ⟨fault', htokens, hfault⟩ := hstop
  · simp [Source.tokens, Lexer.tokenize, Lexer.ofString, Cursor.drain, hfault] at h
  · simp only [Source.tokens, Lexer.tokenize, Lexer.ofString, Cursor.drain, hfault] at h
    cases h
    simp [Lexer.items, Lexer.ofString, Cursor.drain, htokens, hfault]

end Parser

namespace Source

variable {source other : String} {fault : Fault} {passed : List Token} {current : Token}
  {behind : List (Except Fault Token)}

/-- Reading a text fails on a token, behind the tokens that have been passed. -/
def FailsAt (source : String) (fault : Fault) (passed : List Token) (current : Token) : Prop :=
  ∃ q : Parser, Parser.ofLexer (.ofString source) = .ok (Parser.before passed q) ∧
    Parser.program.run (Parser.before passed q) = (.failed fault, q) ∧ q.current = current

lemma parse_eq_of_ofLexer {p : Parser} (hstart : Parser.ofLexer (.ofString source) = .ok p) :
    parse source = (Parser.program.run p).1 := by
  rw [parse, hstart, Outcome.ofExcept, Outcome.done_bind]

lemma error_notMem_items (source : String) (hphase : fault.phase = .syntactic) :
    .error fault ∉ (Lexer.ofString source).items := by
  intro hmem
  obtain ⟨_, _, hlexical, _⟩ := Lexer.line_of_mem_items hmem
  rw [hphase] at hlexical
  cases hlexical

/-- A fault of syntax is found on a token, the one that it refuses if it refuses one. -/
lemma exists_failsAt (hparse : parse source = .failed fault) (hphase : fault.phase = .syntactic) :
    ∃ passed current, FailsAt source fault passed current ∧ fault.Describes current := by
  have hgiven := error_notMem_items source hphase
  cases hstart : Parser.ofLexer (.ofString source) with
  | error first =>
    rw [parse, hstart] at hparse
    cases hparse
    exact absurd (Parser.mem_items_of_ofLexer hstart) hgiven
  | ok p =>
    rw [parse_eq_of_ofLexer hstart] at hparse
    cases hrun : Parser.program.run p with
    | mk outcome q =>
      rw [hrun] at hparse
      cases hparse
      rw [← Parser.items_of_ofLexer hstart] at hgiven
      obtain ⟨passed, rfl, describes, _⟩ :=
        Parser.exists_passed_of_program (Parser.ends_of_ofLexer hstart) hgiven hrun
      exact ⟨passed, q.current, ⟨q, hstart, hrun, rfl⟩, describes⟩

/-- The same fault is found in every text that begins with the same tokens. -/
lemma parse_of_failsAt (h : FailsAt source fault passed current)
    (hphase : fault.phase = .syntactic)
    (hitems : (Lexer.ofString other).items = passed.map .ok ++ .ok current :: behind) :
    parse other = .failed fault := by
  obtain ⟨q, hstart, hrun, rfl⟩ := h
  have hgiven := error_notMem_items source hphase
  rw [← Parser.items_of_ofLexer hstart] at hgiven
  obtain ⟨passed', hpassed, _, same⟩ :=
    Parser.exists_passed_of_program (Parser.ends_of_ofLexer hstart) hgiven hrun
  obtain rfl := Parser.before_injective hpassed
  have hother : Parser.ofLexer (.ofString other) =
      .ok (Parser.before passed ⟨q.current, behind⟩) := Parser.ofLexer_of_items hitems
  rw [parse_eq_of_ofLexer hother, same _ (Parser.ends_of_ofLexer hother) rfl]

/-- A fault of the lexer is met, unless a fault of syntax is met on the tokens in front of it. -/
lemma fault_before_of_tokens (h : tokens source = .error fault) :
    ∃ ts : List Token, (Lexer.ofString source).items = ts.map .ok ++ [.error fault] ∧
      (parse source = .failed fault ∨ ∃ earlier, parse source = .failed earlier ∧
        earlier.phase = .syntactic ∧ ∃ token ∈ ts, earlier.line? = some token.line) := by
  obtain ⟨ts, hitems⟩ := Parser.items_of_tokens_eq_error h
  refine ⟨ts, hitems, ?_⟩
  cases hparse : parse source with
  | unfinished => exact absurd hparse (parse_ne_unfinished source)
  | done program =>
    obtain ⟨d, line, hread, _⟩ := derivation_of_parse hparse
    rw [h] at hread
    cases hread
  | failed found =>
    have hfrom := fromText_of_parse hparse
    rw [hitems] at hfrom
    obtain hgiven | hgrammar := hfrom
    · obtain rfl : found = fault := by simpa using hgiven
      exact .inl rfl
    · obtain ⟨line, hline, hpoints⟩ := hgrammar.pointsTo
      obtain ⟨token, hmem, rfl⟩ := mem_tokenLines.mp hline
      exact .inr ⟨found, rfl, hgrammar.phase_eq, token, by simpa using hmem, hpoints⟩

/-- A fault of syntax is found on a token, and the tokens up to this one decide it: nothing behind
them does, not even a fault of the lexer.  A text that the lexer refuses is not read either.  It
fails with the fault of the lexer, or with a fault of syntax on the line of a token in front of
that one. -/
theorem syntax_fault_decided :
    (∀ source fault, parse source = .failed fault → fault.phase = .syntactic →
      ∃ passed current, FailsAt source fault passed current ∧ fault.Describes current) ∧
    (∀ source other fault passed current behind, FailsAt source fault passed current →
      fault.phase = .syntactic →
      (Lexer.ofString other).items = passed.map .ok ++ .ok current :: behind →
      parse other = .failed fault) ∧
    ∀ source fault, tokens source = .error fault →
      ∃ ts : List Token, (Lexer.ofString source).items = ts.map .ok ++ [.error fault] ∧
        (parse source = .failed fault ∨ ∃ earlier, parse source = .failed earlier ∧
          earlier.phase = .syntactic ∧ ∃ token ∈ ts, earlier.line? = some token.line) :=
  ⟨fun _ _ => exists_failsAt, fun _ _ _ _ _ _ => parse_of_failsAt,
    fun _ _ => fault_before_of_tokens⟩

/-- The sign behind a number is refused before the open quote behind it is met. -/
theorem syntax_fault_decided_before_open_quote :
    let fault := Fault.unexpectedToken "';'" "=" 2
    let passed : List Token := [⟨.lbrace, "\x7b", 1⟩, ⟨.integer, "1", 2⟩]
    let source := "\x7b\n1 = y;\x7d"
    let other := "\x7b\n1 = 'y;\x7d"
    (parse source = .failed fault ∧ ∃ passed current, FailsAt source fault passed current ∧
      fault.Describes current) ∧
    (FailsAt source fault passed ⟨.assign, "=", 2⟩ ∧
      (Lexer.ofString other).items = passed.map .ok ++ .ok ⟨.assign, "=", 2⟩ ::
        [.error (.unterminatedChar 2)] ∧
      parse other = .failed fault) ∧
    tokens other = .error (.unterminatedChar 2) ∧
      ∃ ts : List Token, (Lexer.ofString other).items =
          ts.map .ok ++ [.error (.unterminatedChar 2)] ∧
        (parse other = .failed (.unterminatedChar 2) ∨ ∃ earlier, parse other = .failed earlier ∧
          earlier.phase = .syntactic ∧ ∃ token ∈ ts, earlier.line? = some token.line) := by
  intro fault passed source other
  obtain ⟨hfound, hdecided, hrefused⟩ := syntax_fault_decided
  have hparse : parse source = .failed fault := by cbv
  have hfails : FailsAt source fault passed ⟨.assign, "=", 2⟩ :=
    ⟨⟨⟨.assign, "=", 2⟩, [.ok ⟨.name, "y", 2⟩, .ok ⟨.semi, ";", 2⟩, .ok ⟨.rbrace, "\x7d", 2⟩,
      .ok (.endOfInput 2)]⟩, by cbv, by cbv, rfl⟩
  have hitems : (Lexer.ofString other).items = passed.map .ok ++ .ok ⟨.assign, "=", 2⟩ ::
      [.error (.unterminatedChar 2)] := by cbv
  have htokens : tokens other = .error (.unterminatedChar 2) := by cbv
  exact ⟨⟨hparse, hfound source fault hparse rfl⟩,
    ⟨hfails, hitems, hdecided source other fault passed _ _ hfails rfl hitems⟩,
    htokens, hrefused other _ htokens⟩

end Source

end BlockLang
