import BlockLang.Token.Lexer

/-!
# Laws of reading tokens

Reading a token splits the input: what is passed over, the text of the token and what is left make
up the whole (`Cursor.skip_isSuffix`, `Cursor.readHere_text_append`).  Every token but the end of
the input takes at least one character (`Cursor.readToken_length_lt`), so that reading to the end
always gets there (`Cursor.drain_stops`).

The items of a lexer are what it gives when it is asked for the next one again and again
(`Lexer.given_eq_items`).
-/

namespace BlockLang

namespace Cursor

/-! ## Trivia -/

/-- What is left after trivia is an end of the input. -/
theorem skip_isSuffix (mode : Trivia) (line : Nat) (input : List Char) :
    (skip mode line input).2.rest <:+ input := by
  fun_induction skip mode line input <;> simp_all [List.suffix_cons_iff]

/-! ## Nothing is lost

The text of a token and what is left behind it make up the input that it was read from. -/

theorem readWord_text_append (line : Nat) (input : List Char) :
    (readWord line input).1.text.toList ++ (readWord line input).2.rest = input := by
  simp [readWord]

theorem readNumber_text_append (line : Nat) (input : List Char) :
    (readNumber line input).1.text.toList ++ (readNumber line input).2.rest = input := by
  have parts := List.takeWhile_append_dropWhile (p := Char.isDigit) (l := input)
  unfold readNumber
  split
  · next rest point =>
    rw [point] at parts
    simp [parts]
  · simp

theorem closeQuote_text_append {line : Nat} {body input : List Char} {token : Token}
    {next : Cursor} (h : closeQuote line body input = (.ok token, next)) :
    token.text.toList ++ next.rest = '\'' :: body ++ input := by
  unfold closeQuote at h
  split at h <;> cases h
  simp

theorem readQuoted_text_append {line : Nat} {input : List Char} {token : Token} {next : Cursor}
    (h : readQuoted line input = (.ok token, next)) :
    token.text.toList ++ next.rest = '\'' :: input := by
  unfold readQuoted at h
  split at h
  case h_1 rest =>
    have digits := (List.takeWhile_prefix isHexDigit).trans (List.take_prefix 2 rest)
    have parts := List.prefix_iff_eq_append.mp digits
    simpa [parts] using closeQuote_text_append h
  case h_3 => simpa using closeQuote_text_append h
  case h_7 => simpa using closeQuote_text_append h
  all_goals cases h

theorem readFrom_text_append {line : Nat} {c : Char} {rest : List Char} {token : Token}
    {next : Cursor} (h : readFrom line c rest = (.ok token, next)) :
    token.text.toList ++ next.rest = c :: rest := by
  unfold readFrom at h
  split at h
  · cases h
    exact readNumber_text_append line (c :: rest)
  split at h
  · cases h
    exact readWord_text_append line (c :: rest)
  split at h
  · next quote =>
    subst quote
    exact readQuoted_text_append h
  split at h <;> cases h
  simp

theorem readHere_text_append {line : Nat} {input : List Char} {token : Token} {next : Cursor}
    (h : readHere line input = (.ok token, next)) :
    token.text.toList ++ next.rest = input := by
  unfold readHere at h
  split at h
  · cases h
    rfl
  · split at h
    · cases h
      simp
    · exact readFrom_text_append h
  · exact readFrom_text_append h

theorem isWordChar_of_isWordStart {c : Char} (h : isWordStart c = true) :
    isWordChar c = true := by
  simp only [isWordStart, isWordChar, Char.isAlphanum, Bool.or_eq_true] at h ⊢
  exact h.imp_left .inl

theorem readNumber_text_ne_nil {c : Char} (h : c.isDigit = true) (line : Nat)
    (rest : List Char) : (readNumber line (c :: rest)).1.text.toList ≠ [] := by
  unfold readNumber
  split <;> simp [h]

theorem readQuoted_text_ne_nil {line : Nat} {input : List Char} {token : Token} {next : Cursor}
    (h : readQuoted line input = (.ok token, next)) : token.text.toList ≠ [] := by
  have closed : ∀ {body input : List Char},
      closeQuote line body input = (.ok token, next) → token.text.toList ≠ [] := by
    intro body input h
    unfold closeQuote at h
    split at h <;> cases h
    simp
  unfold readQuoted at h
  split at h
  case h_1 => exact closed h
  case h_3 => exact closed h
  case h_7 => exact closed h
  all_goals cases h

/-- A token that is read from a character has a text. -/
theorem readFrom_text_ne_nil {line : Nat} {c : Char} {rest : List Char} {token : Token}
    {next : Cursor} (h : readFrom line c rest = (.ok token, next)) : token.text.toList ≠ [] := by
  unfold readFrom at h
  split at h
  · next digit =>
    cases h
    exact readNumber_text_ne_nil digit line rest
  split at h
  · next start =>
    cases h
    simp [isWordChar_of_isWordStart start]
  split at h
  · exact readQuoted_text_ne_nil h
  split at h <;> cases h
  simp

/-- Every token but the end of the input takes a character. -/
theorem readHere_length_lt {line : Nat} {input : List Char} {token : Token} {next : Cursor}
    (h : readHere line input = (.ok token, next)) (notEnd : token.kind ≠ .endOfInput) :
    next.rest.length < input.length := by
  have text : token.text.toList ≠ [] := by
    unfold readHere at h
    split at h
    · cases h
      exact absurd rfl notEnd
    · split at h
      · cases h
        simp
      · exact readFrom_text_ne_nil h
    · exact readFrom_text_ne_nil h
  have parts := congrArg List.length (readHere_text_append h)
  have := List.length_pos_iff.mpr text
  rw [List.length_append] at parts
  omega

theorem readToken_length_lt {cursor next : Cursor} {token : Token}
    (h : cursor.readToken = (.ok token, next)) (notEnd : token.kind ≠ .endOfInput) :
    next.rest.length < cursor.rest.length := by
  unfold readToken at h
  split at h
  · cases h
  · next start trivia =>
    have skipped := (skip_isSuffix .blanks cursor.line cursor.rest).length_le
    have := readHere_length_lt h notEnd
    unfold skipTrivia at trivia
    rw [trivia] at skipped
    exact Nat.lt_of_lt_of_le this skipped

/-! ## The end is reached -/

/-- Reading to the end gets there: it stops at a fault or gives the end of the input. -/
theorem drainWithin_stops {steps : Nat} {cursor : Cursor} (h : cursor.rest.length < steps) :
    (drainWithin steps cursor).fault?.isSome = true ∨
      ∃ before last, (drainWithin steps cursor).tokens = before ++ [last] ∧
        last.kind = .endOfInput := by
  induction steps generalizing cursor with
  | zero => omega
  | succ steps ih =>
    unfold drainWithin
    split
    · exact .inl rfl
    · next token next read =>
      split
      · next last => exact .inr ⟨[], token, rfl, last⟩
      · next notEnd =>
        have shorter := readToken_length_lt read notEnd
        rcases ih (Nat.lt_of_lt_of_le shorter (Nat.le_of_lt_succ h)) with
          fault | ⟨before, last, tokens, kind⟩
        · exact .inl fault
        · exact .inr ⟨token :: before, last, by simp [tokens], kind⟩

theorem drain_stops (cursor : Cursor) :
    cursor.drain.fault?.isSome = true ∨
      ∃ before last, cursor.drain.tokens = before ++ [last] ∧ last.kind = .endOfInput :=
  drainWithin_stops (Nat.lt_succ_self _)

/-- More steps than it takes to get to the end make no difference. -/
theorem drainWithin_eq_drainWithin {steps steps' : Nat} {cursor : Cursor}
    (h : cursor.rest.length < steps) (h' : cursor.rest.length < steps') :
    drainWithin steps cursor = drainWithin steps' cursor := by
  induction steps generalizing steps' cursor with
  | zero => omega
  | succ steps ih =>
    obtain ⟨steps', rfl⟩ := Nat.exists_eq_succ_of_ne_zero (Nat.ne_zero_of_lt h')
    unfold drainWithin
    split
    · rfl
    · next token next read =>
      split
      · rfl
      · next notEnd =>
        have shorter := readToken_length_lt read notEnd
        have same : drainWithin steps next = drainWithin steps' next :=
          ih (Nat.lt_of_lt_of_le shorter (Nat.le_of_lt_succ h))
            (Nat.lt_of_lt_of_le shorter (Nat.le_of_lt_succ h'))
        rw [same]

end Cursor

/-! ## One item after the other -/

namespace Lexer

/-- What a lexer gives when it is asked at most `times` times for the next item. -/
def given : Nat → Lexer → List (Except Fault Token)
  | 0, _ => []
  | times + 1, lexer =>
    match lexer.next? with
    | (none, _) => []
    | (some item, behind) => item :: given times behind

theorem items_of_finished {lexer : Lexer} (h : lexer.finished = true) : lexer.items = [] := by
  simp [items, h]

theorem given_of_finished {lexer : Lexer} (h : lexer.finished = true) (times : Nat) :
    given times lexer = [] := by
  cases times <;> simp [given, next?, h]

/-- A lexer that is not finished gives what is read at its cursor. -/
theorem next?_of_going {lexer : Lexer} {result : Except Fault Token} {next : Cursor}
    (going : lexer.finished = false) (read : lexer.cursor.readToken = (result, next)) :
    lexer.next? = (some result, ⟨lexer.source, next, isLast result⟩) := by
  simp [next?, nextToken, going, read]

/-- The first of the items is the next one, and the others are those of the lexer behind it. -/
theorem items_eq (lexer : Lexer) : lexer.items =
    match lexer.next? with
    | (none, _) => []
    | (some item, behind) => item :: behind.items := by
  cases going : lexer.finished with
  | true => simp [items, next?, going]
  | false =>
    cases read : lexer.cursor.readToken with
    | mk result next =>
      rw [next?_of_going going read]
      cases result with
      | error fault => simp [items, going, Cursor.drain, Cursor.drainWithin, read, isLast]
      | ok token =>
        by_cases last : token.kind = .endOfInput
        · simp [items, going, Cursor.drain, Cursor.drainWithin, read, isLast, last]
        · have shorter := Cursor.readToken_length_lt read last
          have later : Cursor.drainWithin lexer.cursor.rest.length next = next.drain :=
            Cursor.drainWithin_eq_drainWithin shorter (Nat.lt_succ_self _)
          simp [items, going, Cursor.drain, Cursor.drainWithin, read, isLast, last, later]

/-- An item behind which the lexer is not finished takes a character. -/
theorem next?_length_lt {lexer behind : Lexer} {item : Except Fault Token}
    (h : lexer.next? = (some item, behind)) (goingOn : behind.finished = false) :
    behind.cursor.rest.length < lexer.cursor.rest.length := by
  cases going : lexer.finished with
  | true => simp [next?, going] at h
  | false =>
    cases read : lexer.cursor.readToken with
    | mk result next =>
      rw [next?_of_going going read] at h
      cases h
      cases item with
      | error fault => simp [isLast] at goingOn
      | ok token => exact Cursor.readToken_length_lt read (by simpa [isLast] using goingOn)

/-- A lexer that is asked for the next item more often than there are characters left gives all its
items. -/
theorem given_eq_items {times : Nat} {lexer : Lexer} (h : lexer.cursor.rest.length < times) :
    given times lexer = lexer.items := by
  induction times generalizing lexer with
  | zero => omega
  | succ times ih =>
    rw [given, items_eq]
    split
    · rfl
    · next item behind asked =>
      cases goingOn : behind.finished with
      | true => rw [given_of_finished goingOn, items_of_finished goingOn]
      | false =>
        have shorter := next?_length_lt asked goingOn
        rw [ih (Nat.lt_of_lt_of_le shorter (Nat.le_of_lt_succ h))]

/-- Tokens in front of the end or of a fault are collected, or the fault is all that is left. -/
theorem mapM_items (tokens : List Token) (fault? : Option Fault) :
    (tokens.map Except.ok ++ (fault?.map Except.error).toList).mapM id =
      match fault? with
      | some fault => Except.error fault
      | none => Except.ok tokens := by
  induction tokens with
  | nil => cases fault? <;> rfl
  | cons token rest ih =>
    simp only [List.map_cons, List.cons_append, List.mapM_cons, id, ih]
    cases fault? <;> rfl

/-- To read all tokens is to collect the items up to the first fault. -/
theorem tokenize_eq_mapM (lexer : Lexer) : lexer.tokenize.1 = lexer.items.mapM id := by
  cases going : lexer.finished with
  | true =>
    simp only [tokenize, items, going, if_true]
    rfl
  | false =>
    simp only [tokenize, items, going, Bool.false_eq_true, if_false]
    exact (mapM_items lexer.cursor.drain.tokens lexer.cursor.drain.fault?).symm

end Lexer

end BlockLang
