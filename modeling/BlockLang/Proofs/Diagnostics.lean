import BlockLang.Proofs.Grammar.Lines
import BlockLang.Proofs.Machine.Lines
import BlockLang.Proofs.Typing.Lines
import Mathlib

/-!
# Where faults point

Each stage takes its lines from the one before it: the lexer counts line ends, the parser takes the
lines of tokens, and the checker and a run take those of nodes.  A fault that is found in a source
therefore points at a line of the source, and if it is not a fault of the lexer, then at the line of
a token (`Source.fault_inside`).
-/

namespace BlockLang.Source

variable {source : String} {fault : Fault}

/-- The faults that are found in a source. -/
inductive Reports (source : String) : Fault → Prop
  /-- The source cannot be read. -/
  | parsing {fault : Fault} (h : parse source = .failed fault) : Reports source fault
  /-- The source cannot be read, or its types are not right. -/
  | checking {fault : Fault} (h : check source = .failed fault) : Reports source fault
  /-- One of the faults that a check has collected. -/
  | element {faults : List Fault} {fault : Fault}
    (h : check source = .failed (.typeErrors faults)) (mem : fault ∈ faults) : Reports source fault
  /-- A run of what has been read fails, whether or not the types are right. -/
  | running {σ : Type} [Sink σ] {program : Program} {bound : Nat} {out : σ} {fault : Fault}
    (h : parse source = .done program) (failing : (program.run bound out).1 = .failed fault) :
    Reports source fault

/-- Where a check fails, the source cannot be read or its program has faults of typing. -/
lemma check_eq_failed (h : check source = .failed fault) : parse source = .failed fault ∨
    ∃ program, parse source = .done program ∧ program.check = .error fault := by
  rw [check] at h
  cases hparse : parse source with
  | failed first =>
    rw [hparse] at h
    cases h
    exact .inl rfl
  | unfinished =>
    rw [hparse] at h
    cases h
  | done program =>
    rw [hparse, Outcome.done_bind] at h
    cases hcheck : program.check with
    | ok _ =>
      rw [hcheck] at h
      cases h
    | error first =>
      rw [hcheck] at h
      cases h
      exact .inr ⟨program, rfl, hcheck⟩

/-- Reading a text gives no collection of faults. -/
lemma parse_ne_typeErrors {faults : List Fault} : parse source ≠ .failed (.typeErrors faults) := by
  intro h
  obtain hlexed | hgrammar := fromText_of_parse h
  · obtain ⟨_, _, hphase, _⟩ := Lexer.line_of_mem_items hlexed
    cases hphase
  · cases hgrammar

/-- A fault that is found in a source is one of the lexer, points at the line of a token, or is
that of the sink. -/
lemma Reports.origin (h : Reports source fault) :
    .error fault ∈ (Lexer.ofString source).items ∨
      fault.FromRun (tokenLines (Lexer.ofString source).items) := by
  cases h with
  | parsing h => exact (fromText_of_parse h).imp_right fun hgrammar => .inl hgrammar.pointsTo
  | checking h =>
    obtain hparse | ⟨program, hparse, hcheck⟩ := check_eq_failed h
    · exact (fromText_of_parse hparse).imp_right fun hgrammar => .inl hgrammar.pointsTo
    · obtain ⟨first, rest, rfl, hpoints⟩ :=
        Program.pointsTo_of_check (onLines_of_parse hparse) hcheck
      -- A collection points where its first fault does.
      exact .inr (.inl (hpoints first List.mem_cons_self))
  | element h mem =>
    obtain hparse | ⟨program, hparse, hcheck⟩ := check_eq_failed h
    · exact absurd hparse parse_ne_typeErrors
    · obtain ⟨first, rest, heq, hpoints⟩ :=
        Program.pointsTo_of_check (onLines_of_parse hparse) hcheck
      cases heq
      exact .inr (.inl (hpoints fault mem))
  | running h failing => exact .inr (Program.fromRun_of_run (onLines_of_parse h) _ failing)

/-- A fault that is found in a source points at one of its lines, unless the sink has failed, and
if it is not a fault of the lexer, it points at the line of a token. -/
theorem fault_inside (h : Reports source fault) :
    (∃ reason, fault = .outputFailed reason) ∨
      ∃ line, fault.line? = some line ∧
        (1 ≤ line ∧ line ≤ 1 + source.toList.count '\n') ∧
        (fault.phase ≠ .lexical →
          ∃ token, .ok token ∈ (Lexer.ofString source).items ∧ token.line = line) := by
  obtain hlexed | ⟨line, hline, hfault⟩ | hsink := h.origin
  · obtain ⟨line, hbounds, hphase, hfault⟩ := Lexer.line_of_mem_items hlexed
    exact .inr ⟨line, hfault, hbounds, fun hother => absurd hphase hother⟩
  · obtain ⟨token, hmem, rfl⟩ := mem_tokenLines.mp hline
    obtain ⟨line, hbounds, hstands⟩ := Lexer.line_of_mem_items hmem
    cases hstands
    exact .inr ⟨token.line, hfault, hbounds, fun _ => ⟨token, hmem, rfl⟩⟩
  · exact .inl hsink

/-- A name on the third line that is not defined, and a division by zero on the second line. -/
theorem fault_inside_undefined_and_dividing :
    (∃ token, .ok token ∈ (Lexer.ofString "print 1;\n\nprint a;\n").items ∧
      Reports "print 1;\n\nprint a;\n" (.undefinedName "a" token.line)) ∧
    ∃ token, .ok token ∈ (Lexer.ofString "print 1\n/ 0;").items ∧
      Reports "print 1\n/ 0;" (.divisionByZero token.line) := by
  have hcheck : check "print 1;\n\nprint a;\n" = .failed (.typeErrors [.undefinedName "a" 3]) := by
    cbv
  have undefined : Reports "print 1;\n\nprint a;\n" (.undefinedName "a" 3) :=
    .element hcheck (List.mem_singleton_self _)
  have hparse : parse "print 1\n/ 0;" = .done ⟨[.print (.binary .div (.literal (.int 1 1))
      (.literal (.int 0 2)) 2) 1]⟩ := by cbv
  have dividing : Reports "print 1\n/ 0;" (.divisionByZero 2) :=
    .running hparse (by cbv : (Program.run 0 _ Buffer.unbounded).1 = .failed (.divisionByZero 2))
  constructor
  · obtain ⟨_, houtput⟩ | ⟨line, hline, _, htoken⟩ := fault_inside undefined
    · cases houtput
    · cases hline
      obtain ⟨token, hmem, hline⟩ := htoken (by decide)
      exact ⟨token, hmem, hline ▸ undefined⟩
  · obtain ⟨_, houtput⟩ | ⟨line, hline, _, htoken⟩ := fault_inside dividing
    · cases houtput
    · cases hline
      obtain ⟨token, hmem, hline⟩ := htoken (by decide)
      exact ⟨token, hmem, hline ▸ dividing⟩

end BlockLang.Source
