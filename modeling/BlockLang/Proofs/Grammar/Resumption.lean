import BlockLang.Proofs.Grammar.Consumption
import BlockLang.Proofs.Grammar.Lookahead

/-!
# Reading on behind a fault

A parser that has failed can be asked for a program again, and reads on where it stands.  Once it
has met a fault of the lexer there is nothing to be read any more: it keeps the token in front of
the fault and finds the end of the input behind it.  A statement takes at least two tokens
(`Parser.moves_statement`), so the one that is left is refused or passed in vain, and at the end of
the input there is a program without statements (`Parser.run_program_of_drained`).
-/

namespace BlockLang

namespace Parser

variable {p q : Parser} {ts : List Token} {items items' : List (Except Fault Token)}

/-! ## What is left behind tokens -/

/-- Passing tokens takes items from the front. -/
lemma Consumes.pending_isSuffix (h : Consumes p ts q) : q.pending <:+ p.pending := by
  induction h with
  | nil p => exact List.suffix_rfl
  | @cons p q r ts inner step _ ih =>
    refine ih.trans ?_
    rw [Attempt.run, advance, if_neg inner] at step
    split at step
    · cases step
      exact List.nil_suffix
    · next next pending hpending =>
      cases step
      rw [hpending]
      exact List.suffix_cons _ _
    · cases step

/-- Behind the token on which a parser stands there is only the end of the input. -/
lemma Consumes.length_le_one (h : Consumes p ts q) (hp : p.pending = []) : ts.length ≤ 1 := by
  cases h with
  | nil => exact Nat.zero_le 1
  | cons inner step rest =>
    rw [Attempt.run, advance, if_neg inner, hp] at step
    cases step
    cases rest with
    | nil => exact Nat.le_refl 1
    | cons inner' _ _ => exact absurd rfl inner'

/-- Nothing follows a fault. -/
def FaultLast (items : List (Except Fault Token)) : Prop :=
  ∀ fault behind, .error fault :: behind <:+ items → behind = []

lemma FaultLast.of_isSuffix (h : FaultLast items) (hsuffix : items' <:+ items) :
    FaultLast items' :=
  fun fault behind hfault => h fault behind (hfault.trans hsuffix)

lemma faultLast_append (fault? : Option Fault) : ∀ ts : List Token,
    FaultLast (ts.map .ok ++ (fault?.map .error).toList)
  | [] => by
    intro fault behind hfault
    cases fault? with
    | none => cases List.suffix_nil.mp hfault
    | some last =>
      have hlength := hfault.length_le
      exact List.length_eq_zero_iff.mp (Nat.le_zero.mp (Nat.le_of_succ_le_succ hlength))
  | token :: ts => by
    intro fault behind hfault
    rw [List.map_cons, List.cons_append, List.suffix_cons_iff] at hfault
    obtain heq | hfault := hfault
    · cases heq
    · exact faultLast_append fault? ts fault behind hfault

/-- A lexer stops with its first fault, wherever it begins. -/
lemma faultLast_items (lexer : Lexer) : FaultLast lexer.items := by
  unfold Lexer.items
  split
  · exact faultLast_append none []
  · exact faultLast_append _ _

lemma faultLast_of_ofLexer {lexer : Lexer} (h : ofLexer lexer = .ok p) : FaultLast p.pending := by
  have hitems := faultLast_items lexer
  unfold ofLexer at h
  split at h
  · cases h
    intro fault behind hfault
    cases List.suffix_nil.mp hfault
  · next token pending heq =>
    cases h
    rw [heq] at hitems
    exact hitems.of_isSuffix (List.suffix_cons _ _)
  · cases h

/-! ## Programs, one after the other -/

lemma moves_program : Moves 0 program p :=
  have hget : Moves 0 (Attempt.get : Reading Parser) p := moves_pure p
  hget.bind fun p' q => (moves_statements p'.depth false q).bind fun _ _ => moves_pure _

/-- What is left behind an attempt to read a program. -/
lemma pending_run_program_isSuffix (p : Parser) : (program.run p).2.pending <:+ p.pending := by
  have hmoved : Moved p 0 (program.run p) := moves_program
  have hfinished := run_program_ne_unfinished p
  generalize program.run p = ending at hmoved hfinished
  cases hmoved with
  | done passes _ => exact passes.pending_isSuffix
  | refused passes _ => exact passes.pending_isSuffix
  | met passes _ given =>
    have hsuffix := passes.pending_isSuffix
    rw [given] at hsuffix
    exact (List.suffix_cons _ _).trans hsuffix
  | unfinished q => exact absurd rfl hfinished

/-- Behind a fault of the lexer nothing is left. -/
lemma pending_eq_nil_of_lexical {fault : Fault} (hp : FaultLast p.pending)
    (hfailed : (program.run p).1 = .failed fault) (hphase : fault.phase = .lexical) :
    (program.run p).2.pending = [] := by
  have hmoved : Moved p 0 (program.run p) := moves_program
  generalize program.run p = ending at hmoved hfailed
  cases hmoved with
  | done _ _ => cases hfailed
  | refused _ hsyntactic =>
    cases hfailed
    rw [hphase] at hsyntactic
    cases hsyntactic
  | @met fault' q ts pending passes _ given =>
    have hsuffix := passes.pending_isSuffix
    rw [given] at hsuffix
    exact hp _ _ hsuffix
  | unfinished _ => cases hfailed

/-- The parser after some attempts to read a program. -/
def after : Nat → Parser → Parser
  | 0, p => p
  | n + 1, p => after n (program.run p).2

/-- A parser in front of its last token reads no statement. -/
lemma run_program_of_drained (hp : p.pending = []) :
    (∃ fault, (program.run p).1 = .failed fault ∧ fault.phase = .syntactic) ∨
      (program.run p).1 = .done ⟨[]⟩ := by
  obtain ⟨depth, hdepth⟩ : ∃ depth, p.depth = depth + 1 := ⟨15, by rw [Parser.depth, hp]; rfl⟩
  have hfinished := run_program_ne_unfinished p
  rw [run_program, hdepth, programWithin, statements] at hfinished ⊢
  by_cases hend : p.current.kind = .endOfInput
  · right
    simp [run_kind, hend]
  · left
    have hmoved : Moved p 2 ((statement depth).run p) := moves_statement depth p
    simp only [Attempt.run_bind, run_kind, hend, false_and, or_self, if_false, Bool.false_eq_true]
      at hfinished ⊢
    generalize (statement depth).run p = ending at hmoved hfinished
    cases hmoved with
    | done passes enough => exact absurd (passes.length_le_one hp) (by omega)
    | @refused fault q ts passes hphase => exact ⟨fault, rfl, hphase⟩
    | met passes _ given =>
      have hsuffix := passes.pending_isSuffix
      rw [given, hp] at hsuffix
      cases List.suffix_nil.mp hsuffix
    | unfinished _ => exact absurd rfl hfinished

lemma pending_after_isSuffix (n : Nat) (p : Parser) : (after n p).pending <:+ p.pending := by
  induction n generalizing p with
  | zero => exact List.suffix_rfl
  | succ n ih => exact (ih _).trans (pending_run_program_isSuffix p)

lemma after_add (n m : Nat) (p : Parser) : after (n + m) p = after m (after n p) := by
  induction n generalizing p with
  | zero => rw [Nat.zero_add, after]
  | succ n ih => rw [Nat.add_right_comm, after, after, ih]

/-- A parser that has met a fault of the lexer gives no statements any more: whatever the source is
and wherever the lexer has begun, each later attempt to read a program fails with a fault of syntax
or gives a program without statements. -/
theorem no_statements_behind_lexical_fault {lexer : Lexer} {n m : Nat} {fault : Fault}
    (hstart : ofLexer lexer = .ok p) (hfailed : (program.run (after n p)).1 = .failed fault)
    (hphase : fault.phase = .lexical) (hlater : n < m) :
    (∃ later, (program.run (after m p)).1 = .failed later ∧ later.phase = .syntactic) ∨
      (program.run (after m p)).1 = .done ⟨[]⟩ := by
  obtain ⟨k, rfl⟩ : ∃ k, m = n + (k + 1) := ⟨m - n - 1, by omega⟩
  have hlast : FaultLast (after n p).pending :=
    (faultLast_of_ofLexer hstart).of_isSuffix (pending_after_isSuffix n p)
  have hdrained := pending_eq_nil_of_lexical hlast hfailed hphase
  have hsuffix := pending_after_isSuffix k (program.run (after n p)).2
  rw [hdrained] at hsuffix
  rw [after_add, after]
  exact run_program_of_drained (List.suffix_nil.mp hsuffix)

/-- Behind the first statement of a source the first attempt fails at a number and the second one
at a quote that is not closed, so the third one gives no statement. -/
theorem no_statements_behind_open_quote :
    let lexer : Lexer := ⟨"print 0; 1 2; a 'x".toList, ⟨" 1 2; a 'x".toList, 1⟩, false⟩
    let fault := Fault.unterminatedChar 1
    ∃ p, ofLexer lexer = .ok p ∧
      (program.run (after 1 p)).1 = .failed fault ∧ fault.phase = .lexical ∧ 1 < 2 ∧
      ((∃ later, (program.run (after 2 p)).1 = .failed later ∧ later.phase = .syntactic) ∨
        (program.run (after 2 p)).1 = .done ⟨[]⟩) := by
  intro lexer fault
  let p : Parser := ⟨⟨.integer, "1", 1⟩, [.ok ⟨.integer, "2", 1⟩, .ok ⟨.semi, ";", 1⟩,
    .ok ⟨.name, "a", 1⟩, .error fault]⟩
  have hstart : ofLexer lexer = .ok p := by cbv
  have hfailed : (program.run (after 1 p)).1 = .failed fault := by cbv
  exact ⟨p, hstart, hfailed, rfl, by decide,
    no_statements_behind_lexical_fault hstart hfailed rfl (by decide)⟩

end Parser

end BlockLang
