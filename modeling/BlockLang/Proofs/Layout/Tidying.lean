import BlockLang.Proofs.Layout.Rederivation
import BlockLang.Proofs.Grammar.Concatenation
import BlockLang.Proofs.Token.Matching
import Mathlib.Computability.Language
import Mathlib.Logic.Relation

/-!
# Steps towards a canonical form

A text becomes tidier by steps of three kinds (`Tidies`): a pair of parentheses around an
expression goes, an `else` with an empty block goes, or a number or a character is spelled in
another way.  Nothing else happens to the words, and no step adds any.

Which of these steps leave the program as it is depends on the text around them.  `Tidied L` says
that steps lead from one text of a language to another one and do not leave the language in
between; for the texts of one program this means that only what is redundant has gone.  Steps
within a language are steps within every larger one, and steps in two parts of a text are steps in
the whole (`Tidied.mul`).
-/

namespace BlockLang

open Grammar Piece

variable {n k level : Nat} {kind : TokenKind} {e : Expr}
variable {before after ws ws' vs vs' : List (TokenKind × String)}
variable {L L' M : Language (TokenKind × String)}

/-! ## Steps -/

/-- The word of a kind that has one spelling. -/
def TokenKind.sign (kind : TokenKind) : TokenKind × String :=
  (kind, kind.spelling?.getD "")

/-- The words of a text become those of a tidier one: without a pair of parentheses around an
expression, without an `else` with an empty block, or with another spelling of a number or of a
character, which has the same kind and the same value. -/
inductive Tidies : List (TokenKind × String) → List (TokenKind × String) → Prop
  | parens (before after : List (TokenKind × String)) (inner : Tier 5) :
    Tidies (before ++ TokenKind.lparen.sign :: (inner.tokens.map Token.spelled ++
      TokenKind.rparen.sign :: after)) (before ++ (inner.tokens.map Token.spelled ++ after))
  | emptyElse (before after : List (TokenKind × String)) :
    Tidies (before ++ TokenKind.kwElse.sign :: TokenKind.lbrace.sign ::
      TokenKind.rbrace.sign :: after) (before ++ after)
  | respelled (before after : List (TokenKind × String)) {kind : TokenKind} {text text' : String}
    {value : Literal} (hkind : kind ∈ [TokenKind.integer, .float, .char])
    (hmatches : kind.Matches text'.toList)
    (hvalue : Parser.literalOf ⟨kind, text, 0⟩ = .ok value)
    (hvalue' : Parser.literalOf ⟨kind, text', 0⟩ = .ok value) :
    Tidies (before ++ (kind, text) :: after) (before ++ (kind, text') :: after)

namespace Tidies

/-- A step can be taken inside of a longer text. -/
lemma within (h : Tidies ws ws') (before after : List (TokenKind × String)) :
    Tidies (before ++ (ws ++ after)) (before ++ (ws' ++ after)) := by
  cases h with
  | parens front back inner =>
    simpa using Tidies.parens (before ++ front) (back ++ after) inner
  | emptyElse front back =>
    simpa using Tidies.emptyElse (before ++ front) (back ++ after)
  | respelled front back hkind hmatches hvalue hvalue' =>
    simpa using Tidies.respelled (before ++ front) (back ++ after) hkind hmatches hvalue hvalue'

/-- No step adds words. -/
lemma length_le (h : Tidies ws ws') : ws'.length ≤ ws.length := by
  cases h <;> simp only [List.length_append, List.length_cons] <;> omega

end Tidies

/-! ## Steps within a language -/

/-- The words of one text of a language become those of another one, and all texts in between are
of the language too. -/
structure Tidied (L : Language (TokenKind × String)) (ws ws' : List (TokenKind × String)) :
    Prop where
  mem : ws ∈ L
  steps : Relation.ReflTransGen (fun ws ws' => Tidies ws ws' ∧ ws' ∈ L) ws ws'

namespace Tidied

lemma refl (h : ws ∈ L) : Tidied L ws ws :=
  ⟨h, .refl⟩

lemma step (h : ws ∈ L) (h' : ws' ∈ L) (hstep : Tidies ws ws') : Tidied L ws ws' :=
  ⟨h, .single ⟨hstep, h'⟩⟩

lemma trans (h : Tidied L ws ws') (h' : Tidied L ws' vs) : Tidied L ws vs :=
  ⟨h.mem, h.steps.trans h'.steps⟩

lemma mem_right (h : Tidied L ws ws') : ws' ∈ L := by
  obtain ⟨hmem, hsteps⟩ := h
  cases hsteps with
  | refl => exact hmem
  | tail _ hlast => exact hlast.2

lemma length_le (h : Tidied L ws ws') : ws'.length ≤ ws.length := by
  obtain ⟨-, hsteps⟩ := h
  induction hsteps with
  | refl => exact le_rfl
  | tail _ hlast ih => exact hlast.1.length_le.trans ih

/-- What can be done in a language can be done in texts around it. -/
lemma frame (h : Tidied L ws ws') (before after : List (TokenKind × String))
    (hM : ∀ ws ∈ L, before ++ (ws ++ after) ∈ M) :
    Tidied M (before ++ (ws ++ after)) (before ++ (ws' ++ after)) :=
  ⟨hM ws h.mem, h.steps.lift (fun ws => before ++ (ws ++ after))
    fun _ ws hstep => ⟨hstep.1.within before after, hM ws hstep.2⟩⟩

lemma mono (h : Tidied L ws ws') (hL : L ≤ L') : Tidied L' ws ws' := by
  have hwhole := h.frame [] [] (M := L') fun ws hws => by
    rw [List.nil_append, List.append_nil]
    exact hL hws
  rwa [List.nil_append, List.append_nil, List.nil_append, List.append_nil] at hwhole

/-- One text behind another one: the first is tidied, and then the second. -/
lemma mul (h : Tidied L ws ws') (h' : Tidied L' vs vs') :
    Tidied (L * L') (ws ++ vs) (ws' ++ vs') := by
  have hfirst : Tidied (L * L') (ws ++ vs) (ws' ++ vs) :=
    h.frame [] vs fun ws hmem =>
      (Language.append_mem_mul hmem h'.mem : ws ++ vs ∈ L * L')
  have hsecond : Tidied (L * L') (ws' ++ vs) (ws' ++ vs') := by
    have hbehind := h'.frame ws' [] (M := L * L') fun ws hmem => by
      rw [List.append_nil]
      exact Language.append_mem_mul h.mem_right hmem
    rwa [List.append_nil, List.append_nil] at hbehind
  exact hfirst.trans hsecond

/-- A word in front of a text stays as it is. -/
lemma cons (word : TokenKind × String) (h : Tidied L ws ws') :
    Tidied ({[word]} * L) (word :: ws) (word :: ws') :=
  (refl (Set.mem_singleton [word])).mul h

end Tidied

/-! ## Proper words -/

/-- A token with a text such as its kind asks for, and with a value as far as it stands for
one. -/
structure Token.Proper (token : Token) : Prop where
  isMatch : token.kind.Matches token.text.toList
  hasValue : token.HasValue

/-- Tokens all of which are proper. -/
def Grammar.Proper (ts : List Token) : Prop :=
  ∀ token ∈ ts, token.Proper

@[simp] lemma Grammar.proper_nil : Proper [] :=
  List.forall_mem_nil _

@[simp] lemma Grammar.proper_cons {token : Token} {ts : List Token} :
    Proper (token :: ts) ↔ token.Proper ∧ Proper ts :=
  List.forall_mem_cons

@[simp] lemma Grammar.proper_append {ts ts' : List Token} :
    Proper (ts ++ ts') ↔ Proper ts ∧ Proper ts' :=
  List.forall_mem_append

/-- Whether a token is proper does not depend on its line. -/
lemma Token.Proper.of_spelled_eq {token token' : Token} (h : token.Proper)
    (hsame : token.spelled = token'.spelled) : token'.Proper := by
  obtain ⟨kind, text, line⟩ := token'
  obtain ⟨rfl, rfl⟩ := Prod.mk.inj hsame
  exact ⟨h.isMatch, h.hasValue.reline fun _ => line⟩

/-- Words of proper tokens, whatever their lines are. -/
def ProperWords (ws : List (TokenKind × String)) : Prop :=
  ∀ token : Token, token.spelled ∈ ws → token.Proper

lemma Grammar.Proper.properWords {ts : List Token} (h : Proper ts) :
    ProperWords (ts.map Token.spelled) := by
  intro token hmem
  obtain ⟨token', hmem', hsame⟩ := List.mem_map.mp hmem
  exact (h token' hmem').of_spelled_eq hsame

/-- A step leaves proper words. -/
lemma Tidies.properWords (h : Tidies ws ws') (hws : ProperWords ws) : ProperWords ws' := by
  intro token hmem
  cases h with
  | @respelled before after kind text text' value hkind hmatches hvalue hvalue' =>
    simp only [List.mem_append, List.mem_cons] at hmem
    obtain hmem | heq | hmem := hmem
    · exact hws token (List.mem_append_left _ hmem)
    · have hproper : (⟨kind, text', 0⟩ : Token).Proper := ⟨hmatches, value, hvalue'⟩
      exact hproper.of_spelled_eq heq.symm
    · exact hws token (List.mem_append_right _ (List.mem_cons_of_mem _ hmem))
  | _ =>
    refine hws token ?_
    simp only [List.mem_append, List.mem_cons] at hmem ⊢
    tauto

/-- From proper words all words in between are proper, so that they are texts of any language that
has the proper texts of the first one. -/
lemma Tidied.of_properWords (h : Tidied L ws ws') (hws : ProperWords ws)
    (hM : ∀ ws ∈ L, ProperWords ws → ws ∈ M) : Tidied M ws ws' := by
  have hproper : Tidied M ws ws' ∧ ProperWords ws' := by
    obtain ⟨hmem, hsteps⟩ := h
    induction hsteps with
    | refl => exact ⟨.refl (hM ws hmem hws), hws⟩
    | @tail vs vs' _ hlast ih =>
      have hvs' := hlast.1.properWords ih.2
      exact ⟨ih.1.trans (.step ih.1.mem_right (hM vs' hlast.2 hvs') hlast.1), hvs'⟩
  exact hproper.1

/-- A token of a kind that has one spelling is spelled like this. -/
lemma Token.Proper.spelled_eq_sign {token : Token} (h : token.Proper)
    (hkind : token.kind.spelling?.isSome = true) : token.spelled = token.kind.sign := by
  obtain ⟨spelling, hspelling⟩ := Option.isSome_iff_exists.mp hkind
  have htext : token.text = spelling := String.toList_inj.mp (h.isMatch.eq_spelling hspelling)
  simp [Token.spelled, TokenKind.sign, hspelling, htext]

lemma Token.Proper.spelled_eq {word : Word kind} (h : word.1.Proper)
    (hkind : kind.spelling?.isSome = true) : word.1.spelled = kind.sign := by
  obtain ⟨token, rfl⟩ := word
  exact h.spelled_eq_sign hkind

end BlockLang
