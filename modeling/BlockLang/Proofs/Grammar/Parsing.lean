import BlockLang.Proofs.Grammar.Acceptance
import BlockLang.Proofs.Grammar.Input
import BlockLang.Proofs.Grammar.Recovery

/-!
# What is parsed

From a text that is parsed a derivation of its tokens is recovered (`Source.derivation_of_parse`),
and a text whose tokens are derived is parsed (`Source.parse_of_derivation`).
-/

namespace BlockLang

open Grammar

variable {p p' : Parser} {program : Program} {source : String} {line : Nat}

/-! ## Parsers in front of programs -/

namespace Parser

/-- The depth of a parser is enough for what is in front of it. -/
lemma run_program_before {d : Statements} (legible : Legible d.tokens)
    (declared : (⟨d.tree⟩ : Program).Declared) :
    (Parser.program.run (before d.tokens ⟨.endOfInput line, []⟩)).1 = .done ⟨d.tree⟩ := by
  have hitems := congrArg List.length
    (items_before (q := ⟨.endOfInput line, []⟩) : (before d.tokens _).items = _)
  simp only [items, List.length_cons, List.length_append, List.length_map,
    List.length_nil] at hitems
  have hrun := d.read (before d.tokens ⟨.endOfInput line, []⟩).depth false
    (q := ⟨.endOfInput line, []⟩) (.inl rfl) legible declared (by rw [Parser.depth]; omega)
  simp only [Parser.program, Attempt.run_bind, Attempt.run_get, hrun, Attempt.run_pure]

/-- Behind a program is the end of the input and nothing else. -/
lemma before_of_program (hp : p.Ends) (h : Parser.program.run p = (.done program, p')) :
    ∃ (d : Statements) (last : Token), last.kind = .endOfInput ∧ p = before d.tokens ⟨last, []⟩ ∧
      Legible d.tokens ∧ program.Declared ∧ program = ⟨d.tree⟩ := by
  simp only [Parser.program, Attempt.run_bind_eq_done, Attempt.run_pure_eq_done] at h
  obtain ⟨_, _, hget, body, _, hbody, rfl, rfl⟩ := h
  cases hget
  obtain ⟨⟨d, rfl, legible, rfl⟩, declared, hend⟩ := (recovers _).statements hp hbody
  have hlast : p'.current.kind = .endOfInput := by simpa using hend
  refine ⟨d, p'.current, hlast, ?_, legible, declared, rfl⟩
  rw [← hp.behind.eq_of_endOfInput hlast]

end Parser

/-! ## Texts of programs -/

namespace Source

lemma parse_eq_done_iff : parse source = .done program ↔
    ∃ p p', Parser.ofLexer (.ofString source) = .ok p ∧
      Parser.program.run p = (.done program, p') := by
  rw [parse]
  cases Parser.ofLexer (.ofString source) with
  | error fault => simp [Outcome.ofExcept]
  | ok p =>
    simp only [Outcome.ofExcept, Outcome.done_bind, Except.ok.injEq]
    constructor
    · intro h
      exact ⟨p, _, rfl, Prod.ext h rfl⟩
    · rintro ⟨_, p', rfl, h⟩
      rw [h]

/-- The program of a text is the tree of a derivation of its tokens. -/
lemma derivation_of_parse (h : parse source = .done program) :
    ∃ (d : Statements) (line : Nat), tokens source = .ok (d.tokens ++ [.endOfInput line]) ∧
      (∀ token ∈ d.tokens, token.Inner) ∧ Legible d.tokens ∧ program.Declared ∧
      program = ⟨d.tree⟩ := by
  obtain ⟨p, p', hstart, hrun⟩ := parse_eq_done_iff.mp h
  obtain ⟨ts, hts, ⟨line, htokens, hp⟩ | ⟨fault, _, hp⟩⟩ := Parser.ofLexer_ofString source
  · rw [hstart, Except.ok.injEq] at hp
    have hends : p.Ends := by
      rw [hp, Parser.Ends, Parser.items_before]
      exact .append hts (.endOfInput rfl)
    obtain ⟨d, last, hlast, hbefore, legible, declared, rfl⟩ :=
      Parser.before_of_program hends hrun
    have hitems := congrArg Parser.items (hp.symm.trans hbefore)
    rw [Parser.items_before, Parser.items_before] at hitems
    obtain ⟨hsame, _⟩ := List.append_inj' hitems rfl
    obtain rfl : ts = d.tokens :=
      (List.map_inj_right fun _ _ => Except.ok.inj).mp hsame
    exact ⟨d, line, htokens, fun token hmem => (hts token hmem).inner, legible, declared, rfl⟩
  · have hitems := hp p hstart
    have hends : p.Ends := by
      rw [Parser.Ends, hitems]
      exact .append hts (.fault fault)
    obtain ⟨d, last, _, hbefore, _⟩ := Parser.before_of_program hends hrun
    rw [hbefore, Parser.items_before] at hitems
    obtain ⟨_, hlast⟩ := List.append_inj' hitems rfl
    cases hlast

/-- What is in front of the end of the input has texts such as its kinds ask for. -/
lemma wellSpelled_of_tokens {ts : List Token}
    (h : tokens source = .ok (ts ++ [.endOfInput line])) : ∀ token ∈ ts, token.WellSpelled := by
  obtain ⟨ts', hts, ⟨line', htokens, _⟩ | ⟨fault, hfault, _⟩⟩ := Parser.ofLexer_ofString source
  · rw [h, Except.ok.injEq] at htokens
    obtain ⟨rfl, _⟩ := List.append_inj' htokens rfl
    exact hts
  · rw [h] at hfault
    cases hfault

/-- In front of the end of the input there is no other one, and floats can be read. -/
lemma inner_of_tokens {ts : List Token} (h : tokens source = .ok (ts ++ [.endOfInput line])) :
    ∀ token ∈ ts, token.Inner :=
  fun token hmem => (wellSpelled_of_tokens h token hmem).inner

/-- A text with a derivation is the text of a program. -/
lemma parse_of_derivation {d : Statements}
    (htokens : tokens source = .ok (d.tokens ++ [.endOfInput line])) (legible : Legible d.tokens)
    (declared : (⟨d.tree⟩ : Program).Declared) : parse source = .done ⟨d.tree⟩ := by
  obtain ⟨ts, hts, ⟨line', htokens', hp⟩ | ⟨fault, hfault, _⟩⟩ := Parser.ofLexer_ofString source
  · rw [htokens, Except.ok.injEq] at htokens'
    obtain ⟨rfl, _⟩ := List.append_inj' htokens' rfl
    exact parse_eq_done_iff.mpr
      ⟨_, _, hp, Prod.ext (Parser.run_program_before legible declared) rfl⟩
  · rw [htokens] at hfault
    cases hfault

/-- In what is parsed every variable has a type or an initial value. -/
lemma declared_of_parse (h : parse source = .done program) : program.Declared := by
  obtain ⟨_, _, _, _, _, declared, _⟩ := derivation_of_parse h
  exact declared

end Source

end BlockLang
