import BlockLang.Proofs.Endings
import BlockLang.Proofs.Program.Lines
import BlockLang.Proofs.Token.Lines
import BlockLang.Source

/-!
# The lines of what is parsed

A parser takes all lines from tokens: it never stands on a line without a token
(`Parser.Within`), and so every node of the program that it reads stands on the line of a token.  A
fault that it finds itself is one of four sentences about a token, points at the line of one and
mentions no other names than those of tokens (`Fault.OfGrammar`, `Parser.reads_program`).  A fault
of the lexer is passed on as it is.

`Parser.Reads items x P` says this of one activity `x` that reads something of the property `P`.
There is a lemma for each step, and then one for each function of the grammar, by recursion on the
depth.
-/

namespace BlockLang

/-- A name that is the text of a token. -/
def IsTokenName (items : List (Except Fault Token)) (name : String) : Prop :=
  ∃ token, .ok token ∈ items ∧ token.kind = .name ∧ token.text = name

/-- A fault of the grammar at the line of a token. -/
inductive Fault.OfGrammar (items : List (Except Fault Token)) : Fault → Prop
  | unexpectedToken {expected : String} {line : Nat} (got : Token)
    (hexpected : expected = "expression" ∨ ∃ kind : TokenKind, expected = kind.describe)
    (hline : line ∈ tokenLines items) :
    OfGrammar items (.unexpectedToken expected got.describe line)
  | invalidLiteral {kind : String} {line : Nat} (text : String)
    (hkind : kind ∈ ["integer", "float", "character"]) (hline : line ∈ tokenLines items) :
    OfGrammar items (.invalidLiteral kind text line)
  | constNotLiteral {name : String} {line : Nat} (hname : IsTokenName items name)
    (hline : line ∈ tokenLines items) : OfGrammar items (.constNotLiteral name line)
  | missingTypeOrValue {name : String} {line : Nat} (hname : IsTokenName items name)
    (hline : line ∈ tokenLines items) : OfGrammar items (.missingTypeOrValue name line)

lemma Fault.OfGrammar.pointsTo {items : List (Except Fault Token)} {fault : Fault}
    (h : fault.OfGrammar items) : fault.PointsTo (tokenLines items) := by
  cases h <;> exact ⟨_, ‹_›, rfl⟩

lemma Fault.OfGrammar.phase_eq {items : List (Except Fault Token)} {fault : Fault}
    (h : fault.OfGrammar items) : fault.phase = .syntactic := by
  cases h <;> rfl

/-- A fault that the lexer has given, or a fault of the grammar that points at the line of a
token. -/
def Fault.FromText (items : List (Except Fault Token)) (fault : Fault) : Prop :=
  .error fault ∈ items ∨ fault.OfGrammar items

namespace Parser

variable {items : List (Except Fault Token)} {α β : Type}

/-- What a parser has in front of it is among the items, except that it may end with an end of the
input that stands on the line of the last token. -/
structure Within (items : List (Except Fault Token)) (p : Parser) : Prop where
  line : p.current.line ∈ tokenLines items
  current : p.current.kind ≠ .endOfInput → .ok p.current ∈ items
  pending : ∀ item ∈ p.pending, item ∈ items

/-- Among the items the activity reads something of the property `P`, or it fails with a fault from
the text. -/
abbrev Reads (items : List (Except Fault Token)) (x : Reading α) (P : α → Prop) : Prop :=
  x.Upholds (Fault.FromText items) (Within items) P

lemma reads_fail {fault : Fault} {P : α → Prop} (h : fault.OfGrammar items) :
    Reads items (Attempt.fail fault) P :=
  Attempt.upholds_fail (.inr h)

/-! ## Tokens -/

lemma reads_kind : Reads items kind fun _ => True :=
  fun _ hp => ⟨trivial, hp⟩

lemma reads_get : Reads items Attempt.get fun p => p.current.line ∈ tokenLines items :=
  fun _ hp => ⟨hp.line, hp⟩

/-- The token that is passed is the current one. -/
lemma ends_advance {p : Parser} (hp : p.Within items) :
    Attempt.Ends (Fault.FromText items) advance p fun token p' =>
      token = p.current ∧ p'.Within items := by
  obtain ⟨current, pending⟩ := p
  rw [Attempt.Ends, Attempt.run, advance]
  by_cases hend : current.kind = .endOfInput
  · rw [if_pos hend]
    exact ⟨rfl, hp⟩
  · rw [if_neg hend]
    cases pending with
    | nil => exact ⟨rfl, hp.line, fun hinner => absurd rfl hinner, hp.pending⟩
    | cons item pending =>
      obtain ⟨hitem, hpending⟩ := List.forall_mem_cons.mp hp.pending
      cases item with
      | ok next => exact ⟨rfl, mem_tokenLines.mpr ⟨next, hitem, rfl⟩, fun _ => hitem, hpending⟩
      | error fault => exact .inl hitem

lemma reads_advance : Reads items advance fun token => token.line ∈ tokenLines items := by
  refine fun p hp => (ends_advance hp).mono fun token p' => ?_
  rintro ⟨rfl, hp'⟩
  exact ⟨hp.line, hp'⟩

lemma reads_unexpected {expected : String} {P : α → Prop}
    (h : expected = "expression" ∨ ∃ kind : TokenKind, expected = kind.describe) :
    Reads items (unexpected expected) P :=
  fun p hp => .inr (.unexpectedToken p.current h hp.line)

/-- The token that is passed is of the wanted kind. -/
lemma reads_expect (wanted : TokenKind) : Reads items (expect wanted) fun token =>
    token.line ∈ tokenLines items ∧
      (wanted ≠ .endOfInput → .ok token ∈ items ∧ token.kind = wanted) := by
  intro p hp
  rw [expect, Attempt.ends_bind]
  change Attempt.Ends _
    (if p.current.kind = wanted then advance else unexpected wanted.describe) p _
  split
  · next hkind =>
    refine (ends_advance hp).mono fun token p' => ?_
    rintro ⟨rfl, hp'⟩
    exact ⟨⟨hp.line, fun hinner => ⟨hp.current (hkind ▸ hinner), hkind⟩⟩, hp'⟩
  · exact reads_unexpected (.inr ⟨wanted, rfl⟩) p hp

/-- What has been read is given behind a token that has to follow. -/
lemma reads_behind (wanted : TokenKind) {a : α} {P : α → Prop} (h : P a) :
    Reads items (expect wanted >>= fun _ => pure a) P :=
  (reads_expect wanted).bind fun _ _ => Attempt.upholds_pure h

lemma reads_identifier : Reads items identifier fun name =>
    name.line ∈ tokenLines items ∧ IsTokenName items name.name := by
  refine (reads_expect .name).bind fun token ⟨hline, hkind⟩ => Attempt.upholds_pure ⟨hline, ?_⟩
  obtain ⟨hmem, hname⟩ := hkind (by decide)
  exact ⟨token, hmem, hname, rfl⟩

lemma reads_identifier? : Reads items identifier? fun name =>
    ∀ ident ∈ name.toList, ident.line ∈ tokenLines items := by
  unfold identifier?
  refine reads_kind.bind fun next _ => ?_
  split
  · refine reads_identifier.bind fun name hname => Attempt.upholds_pure ?_
    exact List.forall_mem_singleton.mpr hname.1
  · exact Attempt.upholds_pure (List.forall_mem_nil _)

/-- A literal stands where its token does. -/
lemma line_of_literalOf {token : Token} {value : Literal} (h : literalOf token = .ok value) :
    value.line = token.line := by
  unfold literalOf at h
  split at h
  · dsimp only at h
    split at h <;> cases h
    rfl
  · split at h <;> cases h
    rfl
  · split at h <;> cases h
    rfl
  · cases h
    rfl

/-- A literal without a value is at fault where its token stands. -/
lemma fault_of_literalOf {token : Token} {fault : Fault} (h : literalOf token = .error fault) :
    ∃ kind ∈ ["integer", "float", "character"],
      fault = .invalidLiteral kind token.text token.line := by
  unfold literalOf at h
  split at h
  · dsimp only at h
    split at h <;> cases h
    exact ⟨"integer", by decide, rfl⟩
  · split at h <;> cases h
    exact ⟨"float", by decide, rfl⟩
  · split at h <;> cases h
    exact ⟨"character", by decide, rfl⟩
  · cases h

lemma reads_literal : Reads items literal fun e => e.Everywhere (.onLines (tokenLines items)) := by
  refine reads_advance.bind fun token hline => ?_
  refine Attempt.Upholds.bind (P := fun value => value.line ∈ tokenLines items) ?_
    fun value hvalue => Attempt.upholds_pure hvalue
  refine Attempt.upholds_ofExcept (fun value h => ?_) fun fault h => ?_
  · rwa [line_of_literalOf h]
  · obtain ⟨kind, hkind, rfl⟩ := fault_of_literalOf h
    exact .inr (.invalidLiteral token.text hkind hline)

/-! ## Phrases -/

mutual

theorem reads_statements : ∀ (depth : Nat) (inBlock : Bool), Reads items
    (statements depth inBlock) (Stmt.AllEverywhere (.onLines (tokenLines items)))
  | 0, _ => Attempt.upholds_stop
  | depth + 1, inBlock => by
    rw [statements]
    refine reads_kind.bind fun next _ => ?_
    split
    · exact Attempt.upholds_pure trivial
    · exact (reads_statement depth).bind fun first hfirst =>
        (reads_statements depth inBlock).bind fun rest hrest =>
        Attempt.upholds_pure ⟨hfirst, hrest⟩

theorem reads_block : ∀ depth : Nat, Reads items
    (block depth) (Stmt.AllEverywhere (.onLines (tokenLines items)))
  | 0 => Attempt.upholds_stop
  | depth + 1 => by
    rw [block]
    exact (reads_expect .lbrace).bind fun _ _ =>
      (reads_statements depth true).bind fun body hbody => reads_behind .rbrace hbody

theorem reads_statement : ∀ depth : Nat, Reads items
    (statement depth) (Stmt.Everywhere (.onLines (tokenLines items)))
  | 0 => Attempt.upholds_stop
  | depth + 1 => by
    rw [statement]
    refine reads_kind.bind fun next _ => ?_
    split
    · refine reads_advance.bind fun start hstart =>
        (reads_expression depth 0).bind fun value hvalue => reads_behind .semi ?_
      exact ⟨⟨hstart, List.forall_mem_nil _⟩, hvalue⟩
    · refine reads_advance.bind fun start hstart => reads_identifier.bind fun name hname =>
        reads_identifier?.bind fun ty hty => reads_kind.bind fun next _ => ?_
      have hidents : ∀ ident ∈ name :: ty.toList, ident.line ∈ tokenLines items :=
        List.forall_mem_cons.mpr ⟨hname.1, hty⟩
      split
      · refine reads_advance.bind fun _ _ =>
          (reads_expression depth 0).bind fun value hvalue => reads_behind .semi ?_
        exact ⟨⟨hstart, hidents⟩, hvalue⟩
      · split
        · exact reads_fail (.missingTypeOrValue hname.2 hstart)
        · exact reads_behind .semi ⟨hstart, hidents⟩
    · refine reads_advance.bind fun start hstart => reads_identifier.bind fun name hname =>
        reads_identifier?.bind fun ty hty => (reads_expect .assign).bind fun _ _ =>
        (reads_expression depth 0).bind fun value hvalue => ?_
      have hidents : ∀ ident ∈ name :: ty.toList, ident.line ∈ tokenLines items :=
        List.forall_mem_cons.mpr ⟨hname.1, hty⟩
      split
      · exact reads_behind .semi ⟨⟨hstart, hidents⟩, hvalue⟩
      · exact reads_fail (.constNotLiteral hname.2 hstart)
    · refine reads_advance.bind fun start hstart =>
        (reads_expression depth 0).bind fun test htest =>
        (reads_block depth).bind fun thenBlock hthen => reads_kind.bind fun next _ => ?_
      split
      · refine reads_advance.bind fun _ _ => (reads_block depth).bind fun elseBlock helse =>
          Attempt.upholds_pure ?_
        exact ⟨⟨hstart, List.forall_mem_nil _⟩, htest, hthen, helse⟩
      · exact Attempt.upholds_pure ⟨⟨hstart, List.forall_mem_nil _⟩, htest, hthen, trivial⟩
    · refine reads_advance.bind fun start hstart =>
        (reads_expression depth 0).bind fun test htest =>
        (reads_block depth).bind fun body hbody => Attempt.upholds_pure ?_
      exact ⟨⟨hstart, List.forall_mem_nil _⟩, htest, hbody⟩
    · exact reads_advance.bind fun start hstart =>
        reads_behind .semi ⟨hstart, List.forall_mem_nil _⟩
    · exact reads_advance.bind fun start hstart =>
        reads_behind .semi ⟨hstart, List.forall_mem_nil _⟩
    -- An assignment takes its line from the sign, and an expression has the line of its root.
    · refine (reads_expression depth 0).bind fun first hfirst => reads_kind.bind fun next _ => ?_
      split
      · split
        · next target =>
          refine reads_advance.bind fun sign hsign =>
            (reads_expression depth 0).bind fun value hvalue => reads_behind .semi ?_
          exact ⟨⟨hsign, List.forall_mem_singleton.mpr hfirst⟩, hvalue⟩
        · exact reads_unexpected (.inr ⟨.semi, rfl⟩)
      · exact reads_behind .semi ⟨⟨hfirst.line_mem, List.forall_mem_nil _⟩, hfirst⟩

theorem reads_expression : ∀ depth least : Nat, Reads items
    (expression depth least) (Expr.Everywhere (.onLines (tokenLines items)))
  | 0, _ => Attempt.upholds_stop
  | depth + 1, least => by
    rw [expression]
    exact (reads_unary depth).bind fun left hleft => reads_operators depth least hleft

theorem reads_operators : ∀ (depth least : Nat) {left : Expr},
    left.Everywhere (.onLines (tokenLines items)) → Reads items
    (operators depth least left) (Expr.Everywhere (.onLines (tokenLines items)))
  | 0, _, _, _ => Attempt.upholds_stop
  | depth + 1, least, left, hleft => by
    rw [operators]
    refine reads_kind.bind fun next _ => ?_
    split
    · exact Attempt.upholds_pure hleft
    · next op _ =>
      split
      · exact Attempt.upholds_pure hleft
      · exact reads_advance.bind fun sign hsign =>
          (reads_expression depth (op.precedence + 1)).bind fun right hright =>
          reads_operators depth least ⟨hsign, hleft, hright⟩

theorem reads_unary : ∀ depth : Nat, Reads items
    (unary depth) (Expr.Everywhere (.onLines (tokenLines items)))
  | 0 => Attempt.upholds_stop
  | depth + 1 => by
    rw [unary]
    refine reads_kind.bind fun next _ => ?_
    split
    · exact reads_advance.bind fun sign hsign => (reads_unary depth).bind fun operand hoperand =>
        Attempt.upholds_pure ⟨hsign, hoperand⟩
    · exact reads_primary depth

theorem reads_primary : ∀ depth : Nat, Reads items
    (primary depth) (Expr.Everywhere (.onLines (tokenLines items)))
  | 0 => Attempt.upholds_stop
  | depth + 1 => by
    rw [primary]
    refine reads_kind.bind fun next _ => ?_
    split
    · exact reads_literal
    · exact reads_literal
    · exact reads_literal
    · exact reads_literal
    · exact reads_literal
    · exact reads_identifier.bind fun name hname => Attempt.upholds_pure hname.1
    · exact reads_advance.bind fun _ _ =>
        (reads_expression depth 0).bind fun inner hinner => reads_behind .rparen hinner
    · exact reads_get.bind fun start hstart => (reads_block depth).bind fun body hbody =>
        Attempt.upholds_pure ⟨hstart, hbody⟩
    · exact reads_unexpected (.inl rfl)

end

theorem reads_program : Reads items Parser.program
    (Program.Everywhere (.onLines (tokenLines items))) :=
  reads_get.bind fun p _ => (reads_statements p.depth false).bind fun _ hbody =>
    Attempt.upholds_pure hbody

/-! ## Sources -/

variable {source : String} {p : Parser} {fault : Fault} {program : Program}

lemma within_of_ofLexer (h : ofLexer (.ofString source) = .ok p) :
    p.Within (Lexer.ofString source).items := by
  have hne := Lexer.items_ofString_ne_nil source
  rw [ofLexer] at h
  generalize (Lexer.ofString source).items = items at h hne ⊢
  split at h
  · contradiction
  · next token pending =>
    cases h
    exact ⟨mem_tokenLines.mpr ⟨token, List.mem_cons_self, rfl⟩, fun _ => List.mem_cons_self,
      fun _ => List.mem_cons_of_mem _⟩
  · cases h

lemma mem_items_of_ofLexer (h : ofLexer (.ofString source) = .error fault) :
    .error fault ∈ (Lexer.ofString source).items := by
  rw [ofLexer] at h
  split at h
  · cases h
  · cases h
  · next heq =>
    cases h
    rw [heq]
    exact List.mem_cons_self

end Parser

namespace Source

variable {source : String} {fault : Fault} {program : Program}

/-- Every node of a program stands on the line of a token of its text, and so do the names in
it. -/
theorem onLines_of_parse (h : parse source = .done program) :
    program.Everywhere (.onLines (tokenLines (Lexer.ofString source).items)) := by
  rw [parse] at h
  cases hstart : Parser.ofLexer (.ofString source) with
  | error fault =>
    rw [hstart] at h
    cases h
  | ok p =>
    rw [hstart] at h
    exact ((Parser.reads_program p (Parser.within_of_ofLexer hstart)).of_done
      (Prod.ext h rfl)).1

/-- A text that cannot be read has a fault of the lexer, or one of the grammar that points at the
line of a token. -/
theorem fromText_of_parse (h : parse source = .failed fault) :
    fault.FromText (Lexer.ofString source).items := by
  rw [parse] at h
  cases hstart : Parser.ofLexer (.ofString source) with
  | error first =>
    rw [hstart] at h
    cases h
    exact .inl (Parser.mem_items_of_ofLexer hstart)
  | ok p =>
    rw [hstart] at h
    exact (Parser.reads_program p (Parser.within_of_ofLexer hstart)).of_failed (Prod.ext h rfl)

end Source

end BlockLang
