import BlockLang.Token.Lemmas
import Mathlib.Data.List.TakeWhile
import Mathlib.Tactic.Common

/-!
# The lines of tokens

A cursor knows how many line ends it has passed, so that its line and the line ends in front of it
add up to the last line of the input, wherever it stands (`Cursor.Reaches`).  What a lexer gives
stands on the line on which the text of it begins, an unterminated comment on the line where it was
opened (`Cursor.exists_readToken_readsOn`).  The items of a source therefore stand on lines of the
source, of which the first is `1` and the last is one more than there are line ends
(`Lexer.line_of_mem_items`).
-/

namespace BlockLang

/-- A token of the line, or a lexical fault that points at it. -/
def StandsOn (line : Nat) : Except Fault Token → Prop
  | .ok token => token.line = line
  | .error fault => fault.phase = .lexical ∧ fault.line? = some line

/-- The lines of the tokens among the items that a lexer gives. -/
def tokenLines (items : List (Except Fault Token)) : List Nat :=
  items.filterMap fun
    | .ok token => some token.line
    | .error _ => none

lemma mem_tokenLines {items : List (Except Fault Token)} {line : Nat} :
    line ∈ tokenLines items ↔ ∃ token, .ok token ∈ items ∧ token.line = line := by
  rw [tokenLines, List.mem_filterMap]
  constructor
  · rintro ⟨token | token, hmem, hline⟩
    · cases hline
    · exact ⟨token, hmem, Option.some.inj hline⟩
  · rintro ⟨token, hmem, rfl⟩
    exact ⟨.ok token, hmem, rfl⟩

namespace Cursor

variable {c c' c'' : Cursor} {line : Nat} {input : List Char}

/-- The number of the last line of the input, counted from a place in it. -/
def lastLine (c : Cursor) : Nat :=
  c.line + c.rest.count '\n'

/-- The place `c'` is behind the place `c` in the same input. -/
structure Reaches (c c' : Cursor) : Prop where
  line_le : c.line ≤ c'.line
  lastLine_eq : c'.lastLine = c.lastLine

lemma Reaches.refl (c : Cursor) : c.Reaches c :=
  ⟨le_rfl, rfl⟩

lemma Reaches.trans (h : c.Reaches c') (h' : c'.Reaches c'') : c.Reaches c'' :=
  ⟨h.line_le.trans h'.line_le, h'.lastLine_eq.trans h.lastLine_eq⟩

lemma line_le_lastLine (c : Cursor) : c.line ≤ c.lastLine :=
  Nat.le_add_right _ _

/-- A character is passed. -/
lemma reaches_cons (ch : Char) (line : Nat) (rest : List Char) :
    Reaches ⟨ch :: rest, line⟩ ⟨rest, lineAfter ch line⟩ := by
  unfold lineAfter
  split
  · next newline =>
    refine ⟨Nat.le_succ line, ?_⟩
    simp only [lastLine, newline, List.count_cons_self]
    omega
  · next other =>
    refine ⟨le_rfl, ?_⟩
    rw [lastLine, lastLine, List.count_cons_of_ne other]

/-- A character other than a line end is passed. -/
lemma reaches_cons_of_ne {ch : Char} (h : ch ≠ '\n') (line : Nat) (rest : List Char) :
    Reaches ⟨ch :: rest, line⟩ ⟨rest, line⟩ := by
  have hstep := reaches_cons ch line rest
  rwa [lineAfter, if_neg h] at hstep

/-- Characters other than line ends are passed. -/
lemma reaches_append {before : List Char} (h : '\n' ∉ before) (line : Nat) (rest : List Char) :
    Reaches ⟨before ++ rest, line⟩ ⟨rest, line⟩ := by
  refine ⟨le_rfl, ?_⟩
  rw [lastLine, lastLine, List.count_append, List.count_eq_zero_of_not_mem h, Nat.zero_add]

lemma reaches_dropWhile {p : Char → Bool} (h : p '\n' = false) (line : Nat) (input : List Char) :
    Reaches ⟨input, line⟩ ⟨input.dropWhile p, line⟩ := by
  have hpassed : '\n' ∉ input.takeWhile p := by
    intro hmem
    rw [List.mem_takeWhile_imp hmem] at h
    cases h
  have hstep := reaches_append hpassed line (input.dropWhile p)
  rwa [List.takeWhile_append_dropWhile] at hstep

/-! ## Blanks and comments -/

lemma le_lineAfter (ch : Char) (line : Nat) : line ≤ lineAfter ch line :=
  (reaches_cons ch line []).line_le

/-- What is passed over is a part of the input. -/
lemma skip_reaches (mode : Trivia) (line : Nat) (input : List Char) :
    Reaches ⟨input, line⟩ (skip mode line input).2 := by
  fun_induction skip mode line input with
  | case1 line rest ih | case2 line rest ih | case7 _ line rest ih =>
    exact ((reaches_cons_of_ne (by decide) line _).trans
      (reaches_cons_of_ne (by decide) line rest)).trans ih
  | case3 line ch rest _ _ _ ih | case8 _ line ch rest _ ih =>
    exact (reaches_cons ch line rest).trans ih
  | case5 line rest ih => exact (reaches_cons '\n' line rest).trans ih
  | case6 line ch rest inner ih => exact (reaches_cons_of_ne inner line rest).trans ih
  | case4 | case9 | case10 => exact .refl _

/-- A comment that does not end was opened between the place where it was looked for and the end of
the input. -/
lemma skip_opened {first opened : Nat} (mode : Trivia) (line : Nat) (input : List Char) :
    (∀ o, mode = .blockComment o → first ≤ o ∧ o ≤ line) → first ≤ line →
    (skip mode line input).1 = some opened →
    first ≤ opened ∧ opened ≤ (skip mode line input).2.line := by
  fun_induction skip mode line input with
  | case1 _ _ ih | case6 _ _ _ _ ih | case7 _ _ _ ih =>
    exact fun _ hfirst => ih (by simp) hfirst
  | case2 line rest ih =>
    intro _ hfirst
    refine ih (fun o ho => ?_) hfirst
    cases ho
    exact ⟨hfirst, le_rfl⟩
  | case3 line ch rest _ _ _ ih =>
    exact fun _ hfirst => ih (by simp) (hfirst.trans (le_lineAfter ch line))
  | case5 line rest ih => exact fun _ hfirst => ih (by simp) (Nat.le_succ_of_le hfirst)
  | case8 o line ch rest _ ih =>
    intro hmode hfirst
    refine ih (fun o' ho => ?_) (hfirst.trans (le_lineAfter ch line))
    cases ho
    exact ⟨(hmode o rfl).1, (hmode o rfl).2.trans (le_lineAfter ch line)⟩
  | case9 o line =>
    intro hmode _ hopened
    cases hopened
    exact hmode opened rfl
  | case4 | case10 =>
    intro _ _ hopened
    cases hopened

/-! ## One token -/

/-- What is read stands on the line, and the place behind it is behind the beginning. -/
structure ReadsOn (line : Nat) (start : Cursor) (read : Except Fault Token × Cursor) : Prop where
  standsOn : StandsOn line read.1
  reaches : start.Reaches read.2

lemma readNumber_readsOn (line : Nat) (input : List Char) :
    ReadsOn line ⟨input, line⟩ (.ok (readNumber line input).1, (readNumber line input).2) := by
  have hdigits := reaches_dropWhile (p := Char.isDigit) (by decide) line input
  unfold readNumber
  split
  · next rest point =>
    rw [point] at hdigits
    have hfraction := reaches_dropWhile (p := Char.isDigit) (by decide) line rest
    exact ⟨rfl, (hdigits.trans (reaches_cons_of_ne (by decide) line rest)).trans hfraction⟩
  · exact ⟨rfl, hdigits⟩

lemma readWord_readsOn (line : Nat) (input : List Char) :
    ReadsOn line ⟨input, line⟩ (.ok (readWord line input).1, (readWord line input).2) :=
  ⟨rfl, reaches_dropWhile (by decide) line input⟩

lemma closeQuote_readsOn (line : Nat) (body input : List Char) :
    ReadsOn line ⟨input, line⟩ (closeQuote line body input) := by
  unfold closeQuote
  split
  · next rest => exact ⟨rfl, reaches_cons_of_ne (by decide) line rest⟩
  · exact ⟨⟨rfl, rfl⟩, .refl _⟩

lemma ReadsOn.behind {start start' : Cursor} {read : Except Fault Token × Cursor}
    (h : ReadsOn line start' read) (hstart : start.Reaches start') : ReadsOn line start read :=
  ⟨h.standsOn, hstart.trans h.reaches⟩

lemma readQuoted_readsOn (line : Nat) (input : List Char) :
    ReadsOn line ⟨input, line⟩ (readQuoted line input) := by
  have hescape : '\\' ≠ '\n' := by decide
  unfold readQuoted
  split
  · next rest =>
    have hdigits : (rest.take 2).takeWhile isHexDigit <+: rest :=
      (List.takeWhile_prefix isHexDigit).trans (List.take_prefix 2 rest)
    have hpassed : '\n' ∉ (rest.take 2).takeWhile isHexDigit :=
      fun hmem => absurd (List.mem_takeWhile_imp hmem) (by decide)
    generalize (rest.take 2).takeWhile isHexDigit = digits at hdigits hpassed
    have hstep := reaches_append hpassed line (rest.drop digits.length)
    rw [List.prefix_iff_eq_append.mp hdigits] at hstep
    exact (closeQuote_readsOn line _ _).behind (((reaches_cons_of_ne hescape line _).trans
      (reaches_cons_of_ne (by decide) line rest)).trans hstep)
  · next rest =>
    exact ⟨⟨rfl, rfl⟩, (reaches_cons_of_ne hescape line _).trans (reaches_cons '\n' line rest)⟩
  · next ch rest _ newline =>
    exact (closeQuote_readsOn line _ rest).behind ((reaches_cons_of_ne hescape line _).trans
      (reaches_cons_of_ne newline line rest))
  · exact ⟨⟨rfl, rfl⟩, reaches_cons_of_ne hescape line []⟩
  · exact ⟨⟨rfl, rfl⟩, .refl _⟩
  · exact ⟨⟨rfl, rfl⟩, .refl _⟩
  · next ch rest _ _ _ _ _ newline =>
    exact (closeQuote_readsOn line _ rest).behind (reaches_cons_of_ne newline line rest)
  · exact ⟨⟨rfl, rfl⟩, .refl _⟩

/-- No operator is a line end. -/
lemma ne_newline_of_ofChar? {ch : Char} {kind : TokenKind} (h : TokenKind.ofChar? ch = some kind) :
    ch ≠ '\n' := by
  rintro rfl
  cases h

lemma ne_newline_of_ofPair? {a b : Char} {kind : TokenKind}
    (h : TokenKind.ofPair? a b = some kind) : a ≠ '\n' ∧ b ≠ '\n' := by
  unfold TokenKind.ofPair? at h
  split at h
  case h_7 => cases h
  all_goals decide

lemma readFrom_readsOn (line : Nat) (ch : Char) (rest : List Char) :
    ReadsOn line ⟨ch :: rest, line⟩ (readFrom line ch rest) := by
  unfold readFrom
  split
  · exact readNumber_readsOn line (ch :: rest)
  split
  · exact readWord_readsOn line (ch :: rest)
  split
  · next quote =>
    refine (readQuoted_readsOn line rest).behind (reaches_cons_of_ne ?_ line rest)
    rw [quote]
    decide
  split
  · next hkind => exact ⟨rfl, reaches_cons_of_ne (ne_newline_of_ofChar? hkind) line rest⟩
  · exact ⟨⟨rfl, rfl⟩, .refl _⟩

lemma readHere_readsOn (line : Nat) (input : List Char) :
    ReadsOn line ⟨input, line⟩ (readHere line input) := by
  unfold readHere
  split
  · exact ⟨rfl, .refl _⟩
  · next a b rest =>
    split
    · next hkind =>
      obtain ⟨ha, hb⟩ := ne_newline_of_ofPair? hkind
      exact ⟨rfl, (reaches_cons_of_ne ha line _).trans (reaches_cons_of_ne hb line rest)⟩
    · exact readFrom_readsOn line a (b :: rest)
  · next a => exact readFrom_readsOn line a []

/-- The next token or fault stands on a line between here and the end of the input. -/
lemma exists_readToken_readsOn (c : Cursor) :
    ∃ line, (c.line ≤ line ∧ line ≤ c.lastLine) ∧ ReadsOn line c c.readToken := by
  have hskip : c.Reaches c.skipTrivia.2 := skip_reaches .blanks c.line c.rest
  unfold readToken
  split
  · next opened atEnd htrivia =>
    obtain ⟨hfirst, hlast⟩ := skip_opened .blanks c.line c.rest (by simp) le_rfl
      (congrArg Prod.fst htrivia)
    rw [htrivia] at hskip
    change opened ≤ c.skipTrivia.2.line at hlast
    rw [htrivia] at hlast
    refine ⟨opened, ⟨hfirst, ?_⟩, ⟨rfl, rfl⟩, hskip⟩
    exact (hlast.trans atEnd.line_le_lastLine).trans_eq hskip.lastLine_eq
  · next start htrivia =>
    rw [htrivia] at hskip
    refine ⟨start.line, ⟨hskip.line_le, ?_⟩, (readHere_readsOn start.line start.rest).behind hskip⟩
    exact start.line_le_lastLine.trans_eq hskip.lastLine_eq

/-! ## All tokens -/

/-- What a lexer has read: the tokens and the fault that stopped it, if any. -/
def Drained.items (read : Drained) : List (Except Fault Token) :=
  read.tokens.map .ok ++ (read.fault?.map .error).toList

lemma exists_line_of_mem_drainWithin {item : Except Fault Token} {steps : Nat} {c : Cursor}
    (h : item ∈ (drainWithin steps c).items) :
    ∃ line, (c.line ≤ line ∧ line ≤ c.lastLine) ∧ StandsOn line item := by
  induction steps generalizing c with
  | zero => cases h
  | succ steps ih =>
    obtain ⟨line, hline, hstands, hreaches⟩ := c.exists_readToken_readsOn
    unfold drainWithin at h
    split at h
    · next fault next hread =>
      rw [hread] at hstands
      obtain rfl := List.mem_singleton.mp h
      exact ⟨line, hline, hstands⟩
    · next token next hread =>
      rw [hread] at hstands hreaches
      split at h
      · obtain rfl := List.mem_singleton.mp h
        exact ⟨line, hline, hstands⟩
      · rcases List.mem_cons.mp h with rfl | hlater
        · exact ⟨line, hline, hstands⟩
        · obtain ⟨line', ⟨hfirst, hlast⟩, hstands'⟩ := ih hlater
          exact ⟨line', ⟨hreaches.line_le.trans hfirst, hlast.trans_eq hreaches.lastLine_eq⟩,
            hstands'⟩

end Cursor

namespace Lexer

/-- There is always something to read, at least the end of the input. -/
lemma items_ofString_ne_nil (source : String) : (Lexer.ofString source).items ≠ [] := by
  change (Cursor.drainWithin (source.toList.length + 1) (.ofString source)).items ≠ []
  unfold Cursor.drainWithin
  split
  · exact List.cons_ne_nil _ _
  · split <;> exact List.cons_ne_nil _ _

/-- What a lexer gives for a source stands on a line of the source. -/
theorem line_of_mem_items {source : String} {item : Except Fault Token}
    (h : item ∈ (Lexer.ofString source).items) :
    ∃ line, (1 ≤ line ∧ line ≤ 1 + source.toList.count '\n') ∧ StandsOn line item :=
  Cursor.exists_line_of_mem_drainWithin h

end Lexer

end BlockLang
