import BlockLang.Proofs.Grammar.Lines
import BlockLang.Proofs.Grammar.Parsing
import BlockLang.Proofs.Grammar.Progress
import BlockLang.Proofs.Program.Counting

/-!
# What a parser consumes

A parser moves by passing tokens, one after the other, and the end of the input is not among them
(`Parser.Consumes`).  Wherever an activity begins and however it ends, what it leaves behind is a
parser that has come there in this way, except that a fault of the lexer, once it has been met, is
gone (`Parser.Moved`).  `Parser.Moves least x p` also says how many tokens `x` passes at least if it
is done: a statement takes two, an expression one.  There is no condition on `p`, which may be a
parser in the middle of a text or one that has failed before.

With the end of reading that `Parser.run_program_ne_unfinished` gives, and with the bound of
`Grammar.Statements.total_le` for the nodes of a tree, this is `Source.parsing_progresses`.
-/

namespace BlockLang

open Grammar

namespace Parser

variable {α β : Type} {x : Reading α} {f : α → Reading β} {p q r : Parser} {m n least : Nat}
  {ts ts' : List Token}

/-- The parser `p` becomes `q` by passing the tokens `ts`, one after the other. -/
inductive Consumes : Parser → List Token → Parser → Prop
  | nil (p : Parser) : Consumes p [] p
  | cons {p q r : Parser} {ts : List Token} (inner : p.current.kind ≠ .endOfInput)
      (step : advance.run p = (.done p.current, q)) (rest : Consumes q ts r) :
      Consumes p (p.current :: ts) r

lemma Consumes.append (h : Consumes p ts q) (h' : Consumes q ts' r) : Consumes p (ts ++ ts') r := by
  induction h with
  | nil => exact h'
  | cons inner step _ ih => exact .cons inner step (ih h')

/-- Where an activity that began in front of `p` has ended, if it passes at least `least` tokens
unless it fails. -/
inductive Moved (p : Parser) (least : Nat) : Outcome Fault α × Parser → Prop
  | done {a : α} {q : Parser} {ts : List Token} (passes : Consumes p ts q)
      (enough : least ≤ ts.length) : Moved p least (.done a, q)
  /-- What has been read is refused by the grammar. -/
  | refused {fault : Fault} {q : Parser} {ts : List Token} (passes : Consumes p ts q)
      (hphase : fault.phase = .syntactic) : Moved p least (.failed fault, q)
  /-- Behind the current token there was a fault, which is gone. -/
  | met {fault : Fault} {q : Parser} {ts : List Token} {pending : List (Except Fault Token)}
      (passes : Consumes p ts q) (inner : q.current.kind ≠ .endOfInput)
      (given : q.pending = .error fault :: pending) :
      Moved p least (.failed fault, ⟨q.current, pending⟩)
  | unfinished (q : Parser) : Moved p least (.unfinished, q)

/-- From `p` the activity moves by passing tokens, at least `least` of them unless it fails. -/
def Moves (least : Nat) (x : Reading α) (p : Parser) : Prop :=
  Moved p least (x.run p)

lemma Moved.behind {ending : Outcome Fault α × Parser} (hfirst : Consumes p ts q)
    (h : Moved q n ending) (hle : m ≤ ts.length + n) : Moved p m ending := by
  cases h with
  | done passes enough =>
    exact .done (hfirst.append passes) (by rw [List.length_append]; omega)
  | refused passes hphase => exact .refused (hfirst.append passes) hphase
  | met passes inner given => exact .met (hfirst.append passes) inner given
  | unfinished q => exact .unfinished q

lemma Moves.mono (h : Moves m x p) (hle : n ≤ m) : Moves n x p :=
  Moved.behind (.nil p) h (by simpa using hle)

/-- The second of two activities begins where the first one has ended. -/
lemma Moves.andThen (h : Moves m x p) (h' : ∀ a q, Moves n (f a) q) (hle : least ≤ m + n) :
    Moves least (x >>= f) p := by
  rw [Moves, Attempt.run_bind]
  unfold Moves at h
  generalize x.run p = ending at h
  cases h with
  | done passes enough => exact (h' _ _).behind passes (by omega)
  | refused passes hphase => exact .refused passes hphase
  | met passes inner given => exact .met passes inner given
  | unfinished q => exact .unfinished q

/-- The first of two activities takes a token. -/
lemma Moves.takes (h : Moves 1 x p) (h' : ∀ a q, Moves n (f a) q) : Moves (n + 1) (x >>= f) p :=
  h.andThen h' (by omega)

/-- The tokens of the first of two activities do not matter. -/
lemma Moves.bind (h : Moves m x p) (h' : ∀ a q, Moves n (f a) q) : Moves n (x >>= f) p :=
  h.andThen h' (by omega)

lemma moves_pure (a : α) : Moves 0 (pure a) p :=
  .done (.nil p) (Nat.zero_le _)

lemma moves_fail {fault : Fault} (h : fault.phase = .syntactic) :
    Moves least (Attempt.fail fault : Reading α) p :=
  .refused (.nil p) h

lemma moves_stop : Moves least (Attempt.stop : Reading α) p :=
  .unfinished p

/-! ## Tokens -/

/-- What the current token is decides how to go on. -/
lemma moves_kind_bind {f : TokenKind → Reading β} :
    Moves least (kind >>= f) p ↔ Moves least (f p.current.kind) p :=
  Iff.rfl

lemma moves_unexpected (expected : String) : Moves least (unexpected expected : Reading α) p :=
  .refused (.nil p) rfl

/-- Any token but the end of the input is passed. -/
lemma moves_advance (h : p.current.kind ≠ .endOfInput) : Moves 1 advance p := by
  obtain ⟨current, pending⟩ := p
  rcases pending with _ | ⟨fault | next, pending⟩
  · have step : advance.run ⟨current, []⟩ = (.done current, ⟨.endOfInput current.line, []⟩) := by
      rw [Attempt.run, advance, if_neg h]
    rw [Moves, step]
    exact .done (.cons h step (.nil _)) le_rfl
  · have step : advance.run ⟨current, .error fault :: pending⟩ =
        (.failed fault, ⟨current, pending⟩) := by
      rw [Attempt.run, advance, if_neg h]
    rw [Moves, step]
    exact .met (.nil _) h rfl
  · have step : advance.run ⟨current, .ok next :: pending⟩ = (.done current, ⟨next, pending⟩) := by
      rw [Attempt.run, advance, if_neg h]
    rw [Moves, step]
    exact .done (.cons h step (.nil _)) le_rfl

/-- The end of the input is not passed. -/
lemma moves_advance_any : Moves 0 advance p := by
  by_cases hend : p.current.kind = .endOfInput
  · have stays : advance.run p = (.done p.current, p) := by rw [Attempt.run, advance, if_pos hend]
    rw [Moves, stays]
    exact moves_pure p.current
  · exact (moves_advance hend).mono (Nat.zero_le 1)

lemma moves_expect {wanted : TokenKind} (h : wanted ≠ .endOfInput) :
    Moves 1 (expect wanted) p := by
  refine moves_kind_bind.mpr ?_
  split
  · next hkind => exact moves_advance (hkind ▸ h)
  · exact moves_unexpected _

/-- What has been read is given behind a token that has to follow. -/
lemma moves_behind {wanted : TokenKind} (h : wanted ≠ .endOfInput) (a : α) :
    Moves 1 (expect wanted >>= fun _ => pure a) p :=
  (moves_expect h).takes fun _ _ => moves_pure a

lemma moves_identifier : Moves 1 identifier p :=
  (moves_expect (by decide)).takes fun _ _ => moves_pure _

lemma moves_identifier? : Moves 0 identifier? p := by
  refine moves_kind_bind.mpr ?_
  split
  · exact moves_identifier.bind fun _ _ => moves_pure _
  · exact moves_pure none

lemma moves_literal (h : p.current.kind ≠ .endOfInput) : Moves 1 literal p := by
  refine (moves_advance h).takes fun token q => Moves.bind (m := 0) ?_ fun _ _ => moves_pure _
  cases hvalue : literalOf token with
  | ok value => exact moves_pure value
  | error fault =>
    obtain ⟨_, _, rfl⟩ := fault_of_literalOf hvalue
    exact moves_fail rfl

/-! ## Phrases -/

mutual

theorem moves_statements : ∀ (depth : Nat) (inBlock : Bool) (p : Parser),
    Moves 0 (statements depth inBlock) p
  | 0, _, _ => moves_stop
  | depth + 1, inBlock, p => by
    rw [statements]
    refine moves_kind_bind.mpr ?_
    split
    · exact moves_pure []
    · exact (moves_statement depth p).bind fun first q =>
        (moves_statements depth inBlock q).bind fun _ _ => moves_pure _

theorem moves_block : ∀ (depth : Nat) (p : Parser), Moves 2 (block depth) p
  | 0, _ => moves_stop
  | depth + 1, p => by
    rw [block]
    exact (moves_expect (by decide)).takes fun _ q => (moves_statements depth true q).bind
      fun body _ => moves_behind (by decide) body

/-- Every statement ends with a token of its own, and there is another one in front of that. -/
theorem moves_statement : ∀ (depth : Nat) (p : Parser), Moves 2 (statement depth) p
  | 0, _ => moves_stop
  | depth + 1, p => by
    have value := moves_expression depth 0
    have body := moves_block depth
    rw [statement]
    refine moves_kind_bind.mpr ?_
    generalize hkind : p.current.kind = found
    have keyword : found ≠ .endOfInput → Moves 1 advance p := fun hne => moves_advance (hkind ▸ hne)
    split
    · exact (keyword nofun).takes fun _ q => (value q).bind fun _ _ => moves_behind (by decide) _
    · refine (keyword nofun).takes fun _ q => moves_identifier.bind fun _ q =>
        moves_identifier?.bind fun ty q => moves_kind_bind.mpr ?_
      split
      · exact moves_advance_any.bind fun _ q => (value q).bind fun _ _ =>
          moves_behind (by decide) _
      · split
        · exact moves_fail rfl
        · exact moves_behind (by decide) _
    · refine (keyword nofun).takes fun _ q => moves_identifier.bind fun _ q =>
        moves_identifier?.bind fun _ q => (moves_expect (by decide)).bind fun _ q =>
        (value q).bind fun first q => ?_
      split
      · exact moves_behind (by decide) _
      · exact moves_fail rfl
    · refine (keyword nofun).takes fun _ q => (value q).takes fun _ q => (body q).bind fun _ q =>
        moves_kind_bind.mpr ?_
      split
      · exact moves_advance_any.bind fun _ q => (body q).bind fun _ _ => moves_pure _
      · exact moves_pure _
    · exact (keyword nofun).takes fun _ q => (value q).takes fun _ q => (body q).bind fun _ _ =>
        moves_pure _
    · exact (keyword nofun).takes fun _ _ => moves_behind (by decide) _
    · exact (keyword nofun).takes fun _ _ => moves_behind (by decide) _
    · refine (value p).takes fun first q => moves_kind_bind.mpr ?_
      split
      · split
        · exact moves_advance_any.bind fun _ q => (value q).bind fun _ _ =>
            moves_behind (by decide) _
        · exact moves_unexpected _
      · exact moves_behind (by decide) _

theorem moves_expression : ∀ (depth least : Nat) (p : Parser), Moves 1 (expression depth least) p
  | 0, _, _ => moves_stop
  | depth + 1, least, p => by
    rw [expression]
    exact (moves_unary depth p).takes fun operand q => moves_operators depth least operand q

theorem moves_operators : ∀ (depth least : Nat) (operand : Expr) (p : Parser),
    Moves 0 (operators depth least operand) p
  | 0, _, _, _ => moves_stop
  | depth + 1, least, operand, p => by
    rw [operators]
    refine moves_kind_bind.mpr ?_
    split
    · exact moves_pure operand
    · split
      · exact moves_pure operand
      · exact moves_advance_any.bind fun sign q => (moves_expression depth _ q).bind
          fun right q => moves_operators depth least _ q

theorem moves_unary : ∀ (depth : Nat) (p : Parser), Moves 1 (unary depth) p
  | 0, _ => moves_stop
  | depth + 1, p => by
    rw [unary]
    refine moves_kind_bind.mpr ?_
    split
    · exact moves_advance_any.bind fun _ q => (moves_unary depth q).takes fun _ _ => moves_pure _
    · exact moves_primary depth p

theorem moves_primary : ∀ (depth : Nat) (p : Parser), Moves 1 (primary depth) p
  | 0, _ => moves_stop
  | depth + 1, p => by
    rw [primary]
    refine moves_kind_bind.mpr ?_
    generalize hkind : p.current.kind = found
    have inner : found ≠ .endOfInput → p.current.kind ≠ .endOfInput := fun hne => hkind ▸ hne
    split
    · exact moves_literal (inner nofun)
    · exact moves_literal (inner nofun)
    · exact moves_literal (inner nofun)
    · exact moves_literal (inner nofun)
    · exact moves_literal (inner nofun)
    · exact moves_identifier.takes fun _ _ => moves_pure _
    · exact moves_advance_any.bind fun _ q => (moves_expression depth 0 q).bind fun value _ =>
        moves_behind (by decide) value
    · have hget : Moves 0 (Attempt.get : Reading Parser) p := moves_pure p
      exact hget.bind fun _ q => (moves_block depth q).andThen (fun _ _ => moves_pure _) (by decide)
    · exact moves_unexpected _

end

/-- Whatever the parser has done before, the activity takes a token if it is done.  It passes tokens
one after the other, none of them the end of the input, and if it fails the parser stays where it
has come by passing tokens; a fault of the lexer that it has met behind the current token is
gone. -/
def Progresses (x : Reading α) : Prop :=
  ∀ p : Parser, (∀ a q, x.run p = (.done a, q) → ∃ ts, ts ≠ [] ∧ Consumes p ts q) ∧
    ∀ fault q, x.run p = (.failed fault, q) → ∃ ts r, Consumes p ts r ∧ q.current = r.current ∧
      (q = r ∨ r.current.kind ≠ .endOfInput ∧ r.pending = .error fault :: q.pending)

lemma progresses_of_moves (h : ∀ p, Moves (m + 1) x p) : Progresses x := by
  intro p
  have hmoved : Moved p (m + 1) (x.run p) := h p
  generalize x.run p = ending at hmoved
  cases hmoved with
  | @done a q ts passes enough =>
    refine ⟨fun a' q' heq => ?_, nofun⟩
    cases heq
    exact ⟨ts, List.ne_nil_of_length_pos (by omega), passes⟩
  | @refused fault q ts passes _ =>
    refine ⟨nofun, fun fault' q' heq => ?_⟩
    cases heq
    exact ⟨ts, q, passes, rfl, .inl rfl⟩
  | @met fault q ts pending passes inner given =>
    refine ⟨nofun, fun fault' q' heq => ?_⟩
    cases heq
    exact ⟨ts, q, passes, rfl, .inr ⟨inner, given⟩⟩
  | unfinished q => exact ⟨nofun, nofun⟩

end Parser

/-! ## Tokens and nodes -/

/-- Each statement and each expression counts one. -/
def NodeWeight.nodes : NodeWeight where
  onStmt _ := 1
  onExpr _ := 1

namespace Grammar

open NodeWeight

mutual

theorem Tier.total_le : ∀ {n : Nat} (d : Tier n), d.tree.total nodes ≤ d.tokens.length
  | _, .factor factor => factor.total_le
  | _, .tier first links => by
    have hfirst := first.total_le
    have hlinks := links.total_le first.tree
    rw [Tier.tree, Tier.tokens, List.length_append]
    omega

/-- What an operator adds to the phrase to its left. -/
theorem Links.total_le : ∀ {n : Nat} (d : Links n) (left : Expr),
    (d.tree left).total nodes ≤ left.total nodes + d.tokens.length
  | _, .nil, _ => Nat.le_refl _
  | _, .cons op _ sign right rest, left => by
    have hright := right.total_le
    have hrest := rest.total_le (.binary op left right.tree sign.1.line)
    simp only [Expr.total, nodes] at hright hrest
    simp only [Links.tree, Links.tokens, List.length_cons, List.length_append, nodes]
    omega

theorem Factor.total_le : ∀ d : Factor, d.tree.total nodes ≤ d.tokens.length
  | .signed op sign operand => by
    have hoperand := operand.total_le
    simp only [Factor.tree, Factor.tokens, Expr.total, nodes, List.length_cons] at hoperand ⊢
    omega
  | .primary primary => primary.total_le

theorem Primary.total_le : ∀ d : Primary, d.tree.total nodes ≤ d.tokens.length
  | .literal _ | .name _ => Nat.le_refl 1
  | .parens _ inner _ => by
    have hinner := inner.total_le
    simp only [Primary.tree, Primary.tokens, List.length_cons, List.length_append]
    omega
  | .block block => block.total_lt

/-- The braces make up for the block itself. -/
theorem Block.total_lt : ∀ d : Block, 1 + Stmt.sum nodes d.body ≤ d.tokens.length
  | .braces _ body _ => by
    have hbody := body.total_le
    simp only [Block.body, Block.tokens, List.length_cons, List.length_append]
    omega

theorem Statements.total_le (d : Statements) : Stmt.sum nodes d.tree ≤ d.tokens.length := by
  cases d with
  | nil => exact Nat.le_refl 0
  | cons first rest =>
    have hfirst := first.total_le
    have hrest := rest.total_le
    rw [Statements.tree, Stmt.sum, Statements.tokens, List.length_append]
    omega

theorem Statement.total_le : ∀ d : Statement, d.tree.total nodes ≤ d.tokens.length
  | .print _ value _ | .varDef _ _ _ _ value _ | .assign _ _ value _ | .expr value _ => by
    have hvalue := value.total_le
    simp only [Statement.tree, Statement.tokens, Stmt.total, nodes, List.length_cons,
      List.length_append] at hvalue ⊢
    omega
  | .constDef _ _ _ _ value _ => by
    simp only [Statement.tree, Statement.tokens, Stmt.total, Expr.total, nodes, List.length_cons,
      List.length_append]
    omega
  | .varDecl _ _ _ _ => Nat.le_add_left 1 _
  | .ifThen _ test thenBlock => by
    have htest := test.total_le
    have hthen := thenBlock.total_lt
    simp only [Statement.tree, Statement.tokens, Stmt.total, Stmt.sum, nodes, List.length_cons,
      List.length_append] at htest hthen ⊢
    omega
  | .ifElse _ test thenBlock _ elseBlock => by
    have htest := test.total_le
    have hthen := thenBlock.total_lt
    have helse := elseBlock.total_lt
    simp only [Statement.tree, Statement.tokens, Stmt.total, nodes, List.length_cons,
      List.length_append] at htest hthen helse ⊢
    omega
  | .whileLoop _ test body => by
    have htest := test.total_le
    have hbody := body.total_lt
    simp only [Statement.tree, Statement.tokens, Stmt.total, nodes, List.length_cons,
      List.length_append] at htest hbody ⊢
    omega
  | .breakLoop _ _ | .continueLoop _ _ => Nat.le_succ 1

end

end Grammar

namespace Source

open BlockLang.Parser

/-- Reading makes progress and ends.

* From every parser, wherever it stands and whatever it has done before, a program is read to an
  end, and more depth than the parser asks for does not change this.
* A statement, an expression from any precedence on, an operand with or without a sign: each of
  them takes a token, and none of them passes the end of the input.
* A program has at most as many statements and expressions, at any depth, as there are tokens in
  front of the end of the input. -/
theorem parsing_progresses :
    (∀ p : Parser, (Parser.program.run p).1 ≠ .unfinished ∧ ∀ depth, p.depth ≤ depth →
      ((statements depth false).run p).1 ≠ .unfinished) ∧
    (∀ depth least : Nat, Progresses (statement depth) ∧ Progresses (expression depth least) ∧
      Progresses (unary depth) ∧ Progresses (primary depth)) ∧
    ∀ (source : String) (program : Program), parse source = .done program →
      ∃ (ts : List Token) (line : Nat), tokens source = .ok (ts ++ [.endOfInput line]) ∧
        (∀ token ∈ ts, token.kind ≠ .endOfInput) ∧ program.total .nodes ≤ ts.length := by
  refine ⟨fun p => ⟨run_program_ne_unfinished p, fun depth hdepth => ?_⟩, fun depth least => ?_,
    fun source program hparse => ?_⟩
  · exact (advances_statements depth false p (p.depth_le.trans hdepth)).ne_unfinished
  · exact ⟨progresses_of_moves (moves_statement depth),
      progresses_of_moves (moves_expression depth least), progresses_of_moves (moves_unary depth),
      progresses_of_moves (moves_primary depth)⟩
  · obtain ⟨d, line, htokens, hinner, _, _, rfl⟩ := derivation_of_parse hparse
    exact ⟨d.tokens, line, htokens, fun token hmem => (hinner token hmem).1, d.total_le⟩

/-- An open quote behind a name, the same parser when it has met it, and a text. -/
theorem parsing_progresses_open_quote :
    let fault := Fault.unterminatedChar 1
    let name : Token := ⟨.name, "a", 1⟩
    let p : Parser := ⟨name, [.ok ⟨.plus, "+", 1⟩, .error fault]⟩
    let q : Parser := ⟨⟨.plus, "+", 1⟩, []⟩
    (p.depth ≤ 40 ∧ ((statements 40 false).run p).1 ≠ .unfinished) ∧
    ((unary 2).run p = (.done (.name ⟨"a", 1⟩), ⟨⟨.plus, "+", 1⟩, [.error fault]⟩) ∧
      ∃ ts, ts ≠ [] ∧ Consumes p ts ⟨⟨.plus, "+", 1⟩, [.error fault]⟩) ∧
    ((expression 9 0).run p = (.failed fault, q) ∧
      ∃ ts r, Consumes p ts r ∧ q.current = r.current ∧
        (q = r ∨ r.current.kind ≠ .endOfInput ∧ r.pending = .error fault :: q.pending)) ∧
    (parse "\x7b a; \x7d;" = .done ⟨[.expr (.block [.expr (.name ⟨"a", 1⟩)] 1)]⟩ ∧
      ∃ (ts : List Token) (line : Nat), tokens "\x7b a; \x7d;" = .ok (ts ++ [.endOfInput line]) ∧
        (∀ token ∈ ts, token.kind ≠ .endOfInput) ∧
        (⟨[.expr (.block [.expr (.name ⟨"a", 1⟩)] 1)]⟩ : Program).total .nodes ≤ ts.length) := by
  intro fault name p q
  obtain ⟨hends, hprogresses, hcounts⟩ := parsing_progresses
  have hdepth : p.depth ≤ 40 := by decide
  have hoperand : (unary 2).run p =
      (.done (.name ⟨"a", 1⟩), ⟨⟨.plus, "+", 1⟩, [.error fault]⟩) := by cbv
  have hfails : (expression 9 0).run p = (.failed fault, q) := by cbv
  have hparse : parse "\x7b a; \x7d;" =
      .done ⟨[.expr (.block [.expr (.name ⟨"a", 1⟩)] 1)]⟩ := by cbv
  exact ⟨⟨hdepth, (hends p).2 40 hdepth⟩, ⟨hoperand, ((hprogresses 2 0).2.2.1 p).1 _ _ hoperand⟩,
    ⟨hfails, ((hprogresses 9 0).2.1 p).2 _ _ hfails⟩, hparse, hcounts _ _ hparse⟩

end Source

end BlockLang
