import BlockLang.CommandLine
import BlockLang.Proofs.Diagnostics
import BlockLang.Proofs.Grammar.Progress
import BlockLang.Proofs.Grammar.Spelling
import BlockLang.Proofs.Text.Lines

/-!
# Feedback for readers and for tools

The feedback on a check is written for tools as a document, and for readers as lines of text.  Both
tell the same (`Source.feedback_agrees`): what the document has as reports is what the lines have
as messages, in the same order, and behind the messages of a collection there is one more line
that sums them up.

The two ways to write a fault down agree only because a check fails with nothing but a single fault
of the lexer or of the grammar or a collection of single faults of typing, which is not empty
(`Fault.OfCheck`), and because every message is one line: it says nothing but words of the
language, names of the program and what is quoted.
-/

namespace BlockLang

open Text

variable {source : String} {fault : Fault} {program : Program}

/-! ## Messages of one line -/

/-- A word has no line end in it. -/
lemma isLine_of_isWord {text : String} (h : isWord text = true) : IsLine text := by
  intro hmem
  unfold isWord at h
  split at h
  · cases h
  · next first rest heq =>
    rw [Bool.and_eq_true, List.all_eq_true] at h
    rw [heq] at hmem
    rcases List.mem_cons.mp hmem with rfl | hmem
    · exact absurd h.1 (by decide)
    · exact absurd (h.2 _ hmem) (by decide)

/-- A name among the tokens of a source is a word. -/
lemma isWord_of_isTokenName {name : String}
    (h : IsTokenName (Lexer.ofString source).items name) : isWord name = true := by
  obtain ⟨token, hmem, hkind, rfl⟩ := h
  let read := (Cursor.ofString source).drain
  have hread : token ∈ read.tokens := by
    have hitems : .ok token ∈ read.tokens.map Except.ok ++ (read.fault?.map .error).toList := hmem
    simpa using hitems
  obtain ⟨ts, hts, ⟨last, htokens, _⟩ | ⟨_, htokens, _⟩⟩ :=
    Cursor.drainWithin_items _ (.ofString source) (Nat.lt_succ_self _)
  · have hmem' : token ∈ ts ++ [.endOfInput last] := htokens ▸ hread
    rcases List.mem_append.mp hmem' with hmem' | hend
    · exact ((hts token hmem').isName hkind).1
    · rw [List.mem_singleton.mp hend] at hkind
      cases hkind
  · have hmem' : token ∈ ts := htokens ▸ hread
    exact ((hts token hmem').isName hkind).1

namespace Fault

lemma isLine_atLine {line : Nat} {text : String} : IsLine (atLine line text) ↔ IsLine text := by
  simp +decide [atLine]

lemma isLine_message_of_lexical (h : fault.phase = .lexical) : IsLine fault.message := by
  cases fault
  case illegalCharacter | unterminatedComment | unterminatedChar =>
    simp +decide [message, isLine_atLine]
  all_goals cases h

lemma isLine_describe (kind : TokenKind) : IsLine kind.describe := by
  cases kind <;> decide

/-- What the parser reports is on one line. -/
lemma OfGrammar.isLine_message (h : fault.OfGrammar (Lexer.ofString source).items) :
    IsLine fault.message := by
  have hname : ∀ {name : String}, IsTokenName (Lexer.ofString source).items name → IsLine name :=
    fun hname => isLine_of_isWord (isWord_of_isTokenName hname)
  cases h with
  | unexpectedToken got hexpected _ =>
    rcases hexpected with rfl | ⟨kind, rfl⟩
    · simp +decide [message, isLine_atLine]
    · simp +decide [message, isLine_atLine, isLine_describe kind]
  | invalidLiteral text hkind _ =>
    have hline : ∀ kind ∈ ["integer", "float", "character"], IsLine kind := by decide
    simp +decide [message, isLine_atLine, hline _ hkind]
  | constNotLiteral h _ | missingTypeOrValue h _ =>
    simp +decide [message, isLine_atLine, hname h]

lemma isLine_symbol (op : BinOp) : IsLine op.symbol := by
  cases op <;> decide

lemma isLine_unarySymbol (op : UnaryOp) : IsLine op.symbol := by
  cases op <;> decide

lemma isLine_tyName (ty : Ty) : IsLine ty.name := by
  cases ty <;> decide

/-- What the checker reports is on one line, if the names are. -/
lemma OfTyping.isLine_message {lines : List Nat} {P : String → Prop} (h : fault.OfTyping lines P)
    (hP : ∀ name, P name → IsLine name) : IsLine fault.message := by
  cases h with
  | binaryMismatch op left right _ =>
    simp +decide [message, isLine_atLine, isLine_symbol, isLine_tyName]
  | unaryMismatch op operand _ =>
    simp +decide [message, isLine_atLine, isLine_unarySymbol, isLine_tyName]
  | undefinedName hname _ | assignToConst hname _ | duplicateDefinition hname _
  | unknownType hname _ => simp +decide [message, isLine_atLine, hP _ hname]
  | typeMismatch expected got hname _ =>
    simp +decide [message, isLine_atLine, isLine_tyName, hP _ hname]
  | conditionNotBool got hconstruct _ =>
    have hline : ∀ construct ∈ ["if", "while"], IsLine construct := by decide
    simp +decide [message, isLine_atLine, isLine_tyName, hline _ hconstruct]
  | loopControlOutsideLoop hkeyword _ =>
    have hline : ∀ keyword ∈ ["break", "continue"], IsLine keyword := by decide
    simp +decide [message, isLine_atLine, hline _ hkeyword]
  | blockWithoutValue _ => simp +decide [message, isLine_atLine]

/-! ## What a check fails with -/

/-- The fault is no collection of faults. -/
def Single (fault : Fault) : Prop :=
  ∀ faults, fault ≠ .typeErrors faults

/-- One fault of the lexer or of the grammar, or a collection of single faults of typing, which
is not empty. -/
inductive OfCheck : Fault → Prop
  | text {fault : Fault} (hphase : fault.phase = .lexical ∨ fault.phase = .syntactic) :
    OfCheck fault
  | typing {faults : List Fault} (hne : faults ≠ [])
    (helements : ∀ element ∈ faults,
      element.phase = .typing ∧ element.Single ∧ element.line?.isSome = true) :
    OfCheck (.typeErrors faults)

lemma Single.elements_eq (h : fault.Single) : fault.elements = [fault] := by
  cases fault
  case typeErrors faults => exact absurd rfl (h faults)
  all_goals rfl

lemma Single.reports_eq (h : fault.Single) : fault.reports = [fault.report] := by
  cases fault
  case typeErrors faults => exact absurd rfl (h faults)
  all_goals rfl

lemma Single.code_ne (h : fault.Single) : fault.code ≠ "E300" := by
  cases fault
  case typeErrors faults => exact absurd rfl (h faults)
  all_goals simp [code]

/-- A fault of typing is no collection and points at a line. -/
lemma OfTyping.single {lines : List Nat} {P : String → Prop} (h : fault.OfTyping lines P) :
    fault.phase = .typing ∧ fault.Single ∧ fault.line?.isSome = true := by
  cases h <;> exact ⟨rfl, nofun, rfl⟩

lemma OfCheck.elements_single (h : fault.OfCheck) :
    fault.elements ≠ [] ∧ ∀ element ∈ fault.elements, element.Single := by
  cases h with
  | text hphase =>
    have hsingle : fault.Single := by
      rintro faults rfl
      rcases hphase with hphase | hphase <;> cases hphase
    rw [hsingle.elements_eq]
    exact ⟨List.cons_ne_nil _ _, List.forall_mem_singleton.mpr hsingle⟩
  | typing hne helements => exact ⟨hne, fun element hmem => (helements element hmem).2.1⟩

end Fault

namespace Source

/-- The names of a definition are words. -/
lemma isWord_of_isName {name : Ident} {ty : Option Ident} (hname : name.IsName)
    (hty : ∀ ident ∈ ty, ident.IsName) : ∀ ident ∈ name :: ty.toList, isWord ident.name = true := by
  intro ident hmem
  rcases List.mem_cons.mp hmem with rfl | hmem
  · exact hname.1
  · exact (hty ident (Option.mem_toList.mp hmem)).1

/-- The names of what is parsed are words, and its lines are those of tokens. -/
lemma mentions_of_parse (h : parse source = .done program) :
    program.Everywhere
      (.mentions (tokenLines (Lexer.ofString source).items) fun name => isWord name = true) := by
  have hnamed : NodeCondition.spelled.Implies (.named fun name => isWord name = true) := by
    constructor
    · intro s hs ident hmem
      cases s with
      | constDef name ty value line => exact isWord_of_isName hs.1 hs.2.1 ident hmem
      | varDef name ty value line => exact isWord_of_isName hs.1 hs.2 ident hmem
      | varDecl name ty line => exact isWord_of_isName hs.1 hs.2.1 ident hmem
      | assign target value line =>
        obtain rfl := List.mem_singleton.mp hmem
        exact hs.1
      | _ => cases hmem
    · intro e he ident hmem
      cases e with
      | name other =>
        obtain rfl := List.mem_singleton.mp hmem
        exact he.1
      | _ => cases hmem
  have hnames := Stmt.AllEverywhere.mono hnamed (spelled_of_parse h)
  exact Stmt.AllEverywhere.and (onLines_of_parse h) hnames

/-- A check fails with a single fault of the text or a collection of faults of typing, and the
message of each fault is one line. -/
lemma ofCheck_of_check (h : check source = .failed fault) :
    fault.OfCheck ∧ ∀ element ∈ fault.elements, IsLine element.message := by
  rcases check_eq_failed h with hparse | ⟨program, hparse, hcheck⟩
  · have hsingle : fault.Single := by
      rintro faults rfl
      exact parse_ne_typeErrors hparse
    rw [hsingle.elements_eq, List.forall_mem_singleton]
    rcases fromText_of_parse hparse with hlexed | hgrammar
    · obtain ⟨_, _, hphase, _⟩ := Lexer.line_of_mem_items hlexed
      exact ⟨.text (.inl hphase), Fault.isLine_message_of_lexical hphase⟩
    · exact ⟨.text (.inr hgrammar.phase_eq), hgrammar.isLine_message⟩
  · obtain ⟨first, rest, rfl, hfaults⟩ :=
      Program.ofTyping_of_check (mentions_of_parse hparse) hcheck
    refine ⟨.typing (List.cons_ne_nil _ _) fun element hmem => (hfaults element hmem).single,
      fun element hmem => ?_⟩
    exact (hfaults element hmem).isLine_message fun _ => isLine_of_isWord

end Source

/-! ## Two ways to write a fault down -/

namespace Fault

/-- The line behind the messages of a collection. -/
def summary : Fault → List String
  | .typeErrors faults => ["error: " ++ (typeErrors faults).message]
  | _ => []

lemma isLine_summary (fault : Fault) : ∀ line ∈ fault.summary, IsLine line := by
  cases fault
  case typeErrors faults =>
    refine List.forall_mem_singleton.mpr ?_
    simp +decide [message]
  all_goals exact List.forall_mem_nil _

/-- The reports on a fault are those on the single faults of which it consists. -/
lemma OfCheck.reports_eq (h : fault.OfCheck) : fault.reports = fault.elements.map report := by
  by_cases hsingle : fault.Single
  · rw [hsingle.reports_eq, hsingle.elements_eq, List.map_singleton]
  · obtain ⟨faults, rfl⟩ := not_forall_not.mp hsingle
    have hreports : ∀ element ∈ faults, element.reports = [element.report] :=
      fun element hmem => (h.elements_single.2 element hmem).reports_eq
    rw [reports, reportsOf_eq_flatMap, elements, List.flatMap_congr hreports]
    exact List.map_eq_flatMap.symm

/-- The lines on a fault are the messages of the single faults of which it consists, and the line
that sums them up. -/
lemma faultLines_eq (fault : Fault) : Response.faultLines fault =
    String.join ((fault.elements.map (fun element => "error: " ++ element.message) ++
      fault.summary).map (· ++ "\n")) := by
  cases fault
  case typeErrors faults =>
    have hmessages : ((faults.map fun element => "error: " ++ element.message).map (· ++ "\n")) =
        faults.map fun element => Response.errorLine element.message := by
      rw [List.map_map]
      rfl
    rw [elements, summary, List.map_append, hmessages]
    simp [Response.faultLines, Response.errorLine]
  all_goals simp [Response.faultLines, Response.errorLine, elements, summary]

/-- If each message is one line, the messages can be told apart again. -/
lemma lines_faultLines (h : ∀ element ∈ fault.elements, IsLine element.message) :
    Text.lines (Response.faultLines fault) =
      fault.elements.map (fun element => "error: " ++ element.message) ++ fault.summary := by
  have hmessages : ∀ line ∈ fault.elements.map (fun element => "error: " ++ element.message),
      IsLine line :=
    List.forall_mem_map.mpr fun element hmem => isLine_append.mpr ⟨by decide, h element hmem⟩
  rw [faultLines_eq, Text.lines_join (List.forall_mem_append.mpr ⟨hmessages, fault.isLine_summary⟩)]

end Fault

/-! ## Two answers to a check -/

namespace Response

/-- What is printed of feedback is an object that says whether it is a success and has one document
for each report, in the order of the reports. -/
lemma exists_stdout_ofFeedback (feedback : Feedback) : ∃ fields,
    (ofFeedback feedback).stdout = (Json.object fields).pretty ++ "\n" ∧
      fields.lookup "success" = some (.bool feedback.success) ∧
      fields.lookup "diagnostics" = some (.array (feedback.diagnostics.map Report.document)) :=
  ⟨_, rfl, rfl, rfl⟩

/-- What tools and readers are answered about a source without faults. -/
lemma ofSource_check_done (h : Source.check source = .done program) (name : String) :
    ofSource .check true name source = .ofFeedback (.ofProgram name program) ∧
      ofSource .check false name source = ⟨0, "No errors found in " ++ name ++ "\n", ""⟩ := by
  simp only [ofSource, h]
  exact ⟨rfl, rfl⟩

/-- What tools and readers are answered about a source with a fault. -/
lemma ofSource_check_failed (h : Source.check source = .failed fault) (name : String) :
    ofSource .check true name source = .ofFeedback (.ofFault name fault) ∧
      ofSource .check false name source = ⟨1, "", faultLines fault⟩ := by
  simp only [ofSource, h]
  exact ⟨rfl, rfl⟩

end Response

namespace Source

/-- The faults that a check finds, in the order in which they are found. -/
def found : Outcome Fault Program → List Fault
  | .failed fault => fault.elements
  | _ => []

/-- The line behind the messages of a check, if there is one. -/
def summary : Outcome Fault Program → List String
  | .failed fault => fault.summary
  | _ => []

/-- Readers and tools are told the same about every source.

* A check comes to an end.  It fails with one fault of the lexer or of the grammar, or with a
  collection of at least one fault of typing, of which none is itself a collection and each points
  at a line.
* What is printed for tools is an object that says whether the feedback is a success and has the
  documents of its reports, in their order.
* The feedback is a success exactly if it has no reports.  It has one report for each fault that is
  found, in the order in which they are found, and none on a collection.
* The answer for readers has the same exit code, and its lines are the messages of the reports and
  then, behind those of a collection, one line that sums them up. -/
theorem feedback_agrees (name source : String) :
    check source ≠ .unfinished ∧ (∀ fault, check source = .failed fault → fault.OfCheck) ∧
    ∃ feedback : Feedback, Response.ofSource .check true name source = .ofFeedback feedback ∧
      (∃ fields, (Response.ofSource .check true name source).stdout =
          (Json.object fields).pretty ++ "\n" ∧
        fields.lookup "success" = some (.bool feedback.success) ∧
        fields.lookup "diagnostics" = some (.array (feedback.diagnostics.map Report.document))) ∧
      (feedback.success = true ↔ feedback.diagnostics = []) ∧
      feedback.diagnostics = (found (check source)).map Fault.report ∧
      (∀ report ∈ feedback.diagnostics, report.code ≠ "E300") ∧
      (Response.ofSource .check false name source).code =
        (Response.ofSource .check true name source).code ∧
      Text.lines (Response.ofSource .check false name source).stderr =
        feedback.diagnostics.map (fun report => "error: " ++ report.message) ++
          summary (check source) := by
  refine ⟨check_ne_unfinished source, fun fault h => (ofCheck_of_check h).1, ?_⟩
  cases hcheck : check source with
  | unfinished => exact absurd hcheck (check_ne_unfinished source)
  | done program =>
    obtain ⟨hdocument, hlines⟩ := Response.ofSource_check_done hcheck name
    rw [hdocument, hlines]
    exact ⟨.ofProgram name program, rfl, Response.exists_stdout_ofFeedback _, iff_of_true rfl rfl,
      rfl, List.forall_mem_nil _, rfl, rfl⟩
  | failed fault =>
    obtain ⟨hfault, hmessages⟩ := ofCheck_of_check hcheck
    obtain ⟨hne, hsingle⟩ := hfault.elements_single
    obtain ⟨hdocument, hlines⟩ := Response.ofSource_check_failed hcheck name
    have hreports : (Feedback.ofFault name fault).diagnostics = fault.elements.map Fault.report :=
      hfault.reports_eq
    rw [hdocument, hlines]
    refine ⟨.ofFault name fault, rfl, Response.exists_stdout_ofFeedback _, ?_, hreports, ?_, rfl,
      ?_⟩
    · refine iff_of_false Bool.false_ne_true fun hnil => hne ?_
      exact List.map_eq_nil_iff.mp (hreports.symm.trans hnil)
    · rw [hreports]
      exact List.forall_mem_map.mpr fun element hmem => (hsingle element hmem).code_ne
    · rw [Fault.lines_faultLines hmessages, hreports, List.map_map]
      rfl

end Source

end BlockLang
