import BlockLang.Proofs.Endings
import BlockLang.Source
import Mathlib.Order.Nat

/-!
# The parser comes to an end

A parser never goes past the end of the input.  What is read as a statement or as an expression
takes at least one token, so that fewer of them are left behind it (`Parser.left`), and between two
tokens the grammar is at most eight levels deep.  From every parser, wherever it stands, each
function of the grammar therefore comes to an end within a depth of eight times what is left and a
constant (`Parser.advances_statements`), and so does the reading of a whole text
(`Source.parse_ne_unfinished`) and its check (`Source.check_ne_unfinished`).
-/

namespace BlockLang

namespace Parser

variable {α β : Type} {p : Parser} {x : Reading α} {f : α → Reading β}

/-- How much there is in front of the end of the input. -/
def left (p : Parser) : Nat :=
  if p.current.kind = .endOfInput then 0 else p.pending.length + 1

/-- The activity comes to an end and does not go back. -/
def Advances (x : Reading α) (p : Parser) : Prop :=
  x.Settles p fun _ p' => p'.left ≤ p.left

/-- The activity comes to an end, and what it reads takes a token. -/
def Takes (x : Reading α) (p : Parser) : Prop :=
  x.Settles p fun _ p' => p'.left < p.left

lemma Takes.advances (h : Takes x p) : Advances x p :=
  h.mono fun _ _ => le_of_lt

lemma advances_pure (a : α) : Advances (pure a) p :=
  le_refl p.left

lemma Advances.bind (h : Advances x p) (h' : ∀ a p', p'.left ≤ p.left → Advances (f a) p') :
    Advances (x >>= f) p :=
  Attempt.settles_bind.mpr (h.mono fun a p' hleft =>
    (h' a p' hleft).mono fun _ _ hlater => hlater.trans hleft)

/-- A token is taken by the first of two activities. -/
lemma Takes.bind (h : Takes x p) (h' : ∀ a p', p'.left < p.left → Advances (f a) p') :
    Takes (x >>= f) p :=
  Attempt.settles_bind.mpr (h.mono fun a p' hleft =>
    (h' a p' hleft).mono fun _ _ hlater => hlater.trans_lt hleft)

/-! ## Tokens -/

/-- What the current token is decides how to go on. -/
lemma settles_kind_bind {f : TokenKind → Reading β} {Post : β → Parser → Prop} :
    (kind >>= f).Settles p Post ↔ (f p.current.kind).Settles p Post :=
  Attempt.settles_bind

lemma takes_unexpected (expected : String) : Takes (unexpected expected : Reading α) p :=
  trivial

lemma takes_advance (h : p.current.kind ≠ .endOfInput) : Takes advance p := by
  obtain ⟨current, pending⟩ := p
  rw [Takes, Attempt.Settles, Attempt.run, advance, if_neg h]
  rcases pending with _ | ⟨fault | next, rest⟩
  · simp [left, h, Token.endOfInput]
  · trivial
  · have hnext : left ⟨next, rest⟩ ≤ rest.length + 1 := by
      unfold left
      split <;> simp
    have hhere : left ⟨current, .ok next :: rest⟩ = rest.length + 1 + 1 := if_neg h
    exact hnext.trans_lt (by omega)

lemma takes_expect {wanted : TokenKind} (h : wanted ≠ .endOfInput) : Takes (expect wanted) p := by
  refine settles_kind_bind.mpr ?_
  split
  · next hkind => exact takes_advance (hkind ▸ h)
  · exact takes_unexpected _

/-- What has been read is given behind a token that has to follow. -/
lemma advances_behind {wanted : TokenKind} (h : wanted ≠ .endOfInput) (a : α) :
    Advances (expect wanted >>= fun _ => pure a) p :=
  ((takes_expect h).bind fun _ _ _ => advances_pure a).advances

lemma takes_identifier : Takes identifier p :=
  (takes_expect (by decide)).bind fun _ _ _ => advances_pure _

lemma advances_identifier? : Advances identifier? p := by
  refine settles_kind_bind.mpr ?_
  split
  · exact (takes_identifier.bind fun _ _ _ => advances_pure _).advances
  · exact advances_pure none

lemma takes_literal (h : p.current.kind ≠ .endOfInput) : Takes literal p := by
  refine (takes_advance h).bind fun token p' _ => Advances.bind ?_ fun _ _ _ => advances_pure _
  exact Attempt.settles_ofExcept fun _ => le_rfl

/-! ## Phrases -/

mutual

theorem advances_statements : ∀ (depth : Nat) (inBlock : Bool) (p : Parser),
    8 * p.left + 6 ≤ depth → Advances (statements depth inBlock) p
  | 0, _, _, h => absurd h (Nat.not_succ_le_zero _)
  | depth + 1, inBlock, p, h => by
    rw [statements]
    refine settles_kind_bind.mpr ?_
    split
    · exact advances_pure []
    · refine ((takes_statement depth p (by omega)).bind fun first p' hfirst => ?_).advances
      exact (advances_statements depth inBlock p' (by omega)).bind fun _ _ _ => advances_pure _

theorem takes_block : ∀ (depth : Nat) (p : Parser), 8 * p.left + 1 ≤ depth →
    Takes (block depth) p
  | 0, _, h => absurd h (Nat.not_succ_le_zero _)
  | depth + 1, p, h => by
    rw [block]
    refine (takes_expect (by decide)).bind fun _ p' hopening => ?_
    exact (advances_statements depth true p' (by omega)).bind fun body _ _ =>
      advances_behind (by decide) body

theorem takes_statement : ∀ (depth : Nat) (p : Parser), 8 * p.left + 5 ≤ depth →
    Takes (statement depth) p
  | 0, _, h => absurd h (Nat.not_succ_le_zero _)
  | depth + 1, p, h => by
    -- Behind the keyword an expression or a block may follow that takes all the rest.
    have value : ∀ p' : Parser, p'.left < p.left → Advances (expression depth 0) p' :=
      fun p' hleft => (takes_expression depth 0 p' (by omega)).advances
    have body : ∀ p' : Parser, p'.left < p.left → Advances (block depth) p' :=
      fun p' hleft => (takes_block depth p' (by omega)).advances
    rw [statement]
    refine settles_kind_bind.mpr ?_
    generalize hkind : p.current.kind = found
    have keyword : found ≠ .endOfInput → Takes advance p := fun hne => takes_advance (hkind ▸ hne)
    split
    · exact (keyword nofun).bind fun _ p' hstart => (value p' hstart).bind fun _ _ _ =>
        advances_behind (by decide) _
    · refine (keyword nofun).bind fun _ p' hstart => ?_
      refine takes_identifier.advances.bind fun _ q hname => ?_
      refine advances_identifier?.bind fun ty q' hty => settles_kind_bind.mpr ?_
      split
      · next hassign =>
        have hsign : Takes advance q' := takes_advance (by simp [hassign])
        exact hsign.advances.bind fun _ q'' hsign => (value q'' (by omega)).bind fun _ _ _ =>
          advances_behind (by decide) _
      · split
        · exact Attempt.settles_fail _
        · exact advances_behind (by decide) _
    · refine (keyword nofun).bind fun _ p' hstart => ?_
      refine takes_identifier.advances.bind fun _ q hname => ?_
      refine advances_identifier?.bind fun _ q' hty => ?_
      refine (takes_expect (by decide)).advances.bind fun _ q'' hsign => ?_
      refine (value q'' (by omega)).bind fun first _ _ => ?_
      split
      · exact advances_behind (by decide) _
      · exact Attempt.settles_fail _
    · refine (keyword nofun).bind fun _ p' hstart => (value p' hstart).bind fun _ q htest => ?_
      refine (body q (by omega)).bind fun _ q' hthen => settles_kind_bind.mpr ?_
      split
      · next helse =>
        have hotherwise : Takes advance q' := takes_advance (by simp [helse])
        exact hotherwise.advances.bind fun _ q'' hotherwise =>
          (body q'' (by omega)).bind fun _ _ _ => advances_pure _
      · exact advances_pure _
    · refine (keyword nofun).bind fun _ p' hstart => (value p' hstart).bind fun _ q htest => ?_
      exact (body q (by omega)).bind fun _ _ _ => advances_pure _
    · exact (keyword nofun).bind fun _ _ _ => advances_behind (by decide) _
    · exact (keyword nofun).bind fun _ _ _ => advances_behind (by decide) _
    · refine (takes_expression depth 0 p (by omega)).bind fun first q hfirst => ?_
      refine settles_kind_bind.mpr ?_
      split
      · next hassign =>
        have hsign : Takes advance q := takes_advance (by simp [hassign])
        split
        · exact hsign.advances.bind fun _ q' hsign => (value q' (by omega)).bind fun _ _ _ =>
            advances_behind (by decide) _
        · exact (takes_unexpected _).advances
      · exact advances_behind (by decide) _

theorem takes_expression : ∀ (depth least : Nat) (p : Parser), 8 * p.left + 4 ≤ depth →
    Takes (expression depth least) p
  | 0, _, _, h => absurd h (Nat.not_succ_le_zero _)
  | depth + 1, least, p, h => by
    rw [expression]
    exact (takes_unary depth p (by omega)).bind fun operand p' hoperand =>
      advances_operators depth least operand p' (by omega)

theorem advances_operators : ∀ (depth least : Nat) (operand : Expr) (p : Parser),
    8 * p.left + 1 ≤ depth → Advances (operators depth least operand) p
  | 0, _, _, _, h => absurd h (Nat.not_succ_le_zero _)
  | depth + 1, least, operand, p, h => by
    rw [operators]
    refine settles_kind_bind.mpr ?_
    split
    · exact advances_pure operand
    · next op hop =>
      split
      · exact advances_pure operand
      · have hsign : p.current.kind ≠ .endOfInput := by
          intro hend
          rw [hend] at hop
          cases hop
        refine ((takes_advance hsign).bind fun sign p' hsign => ?_).advances
        refine (takes_expression depth _ p' (by omega)).advances.bind fun right p'' hright => ?_
        exact advances_operators depth least _ p'' (by omega)

theorem takes_unary : ∀ (depth : Nat) (p : Parser), 8 * p.left + 3 ≤ depth →
    Takes (unary depth) p
  | 0, _, h => absurd h (Nat.not_succ_le_zero _)
  | depth + 1, p, h => by
    rw [unary]
    refine settles_kind_bind.mpr ?_
    split
    · next op hop =>
      have hsign : p.current.kind ≠ .endOfInput := by
        intro hend
        rw [hend] at hop
        cases hop
      exact (takes_advance hsign).bind fun sign p' hsign =>
        (takes_unary depth p' (by omega)).advances.bind fun _ _ _ => advances_pure _
    · exact takes_primary depth p (by omega)

theorem takes_primary : ∀ (depth : Nat) (p : Parser), 8 * p.left + 2 ≤ depth →
    Takes (primary depth) p
  | 0, _, h => absurd h (Nat.not_succ_le_zero _)
  | depth + 1, p, h => by
    rw [primary]
    refine settles_kind_bind.mpr ?_
    generalize hkind : p.current.kind = found
    have inner : found ≠ .endOfInput → p.current.kind ≠ .endOfInput := fun hne => hkind ▸ hne
    split
    · exact takes_literal (inner nofun)
    · exact takes_literal (inner nofun)
    · exact takes_literal (inner nofun)
    · exact takes_literal (inner nofun)
    · exact takes_literal (inner nofun)
    · exact takes_identifier.bind fun _ _ _ => advances_pure _
    · refine (takes_advance (inner nofun)).bind fun _ p' hopening => ?_
      exact (takes_expression depth 0 p' (by omega)).advances.bind fun value _ _ =>
        advances_behind (by decide) value
    · refine Attempt.settles_bind.mpr (Attempt.settles_get.mpr ?_)
      exact (takes_block depth p (by omega)).bind fun _ _ _ => advances_pure _
    · exact takes_unexpected _

end

/-- The depth of a parser is enough for what is left. -/
lemma depth_le (p : Parser) : 8 * p.left + 6 ≤ p.depth := by
  have hleft : p.left ≤ p.pending.length + 1 := by
    unfold left
    split <;> omega
  rw [depth]
  omega

/-- The depth of a parser is enough to read a program from it. -/
lemma run_program_ne_unfinished (p : Parser) : (program.run p).1 ≠ .unfinished := by
  have hsettles : program.Settles p fun _ p' => p'.left ≤ p.left :=
    Attempt.settles_bind.mpr (Attempt.settles_get.mpr
      ((advances_statements p.depth false p p.depth_le).bind fun _ _ _ => advances_pure _))
  exact hsettles.ne_unfinished

end Parser

namespace Source

/-- Reading a text comes to an end. -/
theorem parse_ne_unfinished (source : String) : parse source ≠ .unfinished := by
  rw [parse]
  cases Parser.ofLexer (.ofString source) with
  | error fault => exact nofun
  | ok p => exact Parser.run_program_ne_unfinished p

/-- Checking a text comes to an end. -/
theorem check_ne_unfinished (source : String) : check source ≠ .unfinished := by
  intro h
  rw [check] at h
  cases hparse : parse source with
  | failed fault =>
    rw [hparse] at h
    cases h
  | unfinished => exact parse_ne_unfinished source hparse
  | done program =>
    rw [hparse, Outcome.done_bind] at h
    cases hcheck : program.check with
    | ok _ =>
      rw [hcheck] at h
      cases h
    | error fault =>
      rw [hcheck] at h
      cases h

end Source

end BlockLang
