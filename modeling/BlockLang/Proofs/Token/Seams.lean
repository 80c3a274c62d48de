import BlockLang.Proofs.Grammar.Input
import BlockLang.Proofs.Program.Relabelling
import BlockLang.Proofs.Token.Lines
import BlockLang.Source

/-!
# Texts one below the other

No token runs across the end of a line, and the only comment that does is one that has to be
closed.  A text that can be read to its end can therefore be read in the same way with another
text below it, and then comes what the other text is read as (`Cursor.Lexes.above`).  The tokens
of the other text are further down by the number of lines above them (`Cursor.Lexes.later`).

`Cursor.Lexes` is the relation between a place, the tokens that are read from there and the line
on which the input ends.  For a text that can be read it says the same as `Source.tokens`
(`Source.tokens_eq_iff`).
-/

namespace BlockLang

/-- The same token on another line. -/
def Token.reline (f : Nat → Nat) (token : Token) : Token :=
  { token with line := f token.line }

namespace Cursor

variable {c next start : Cursor} {token : Token} {line last k : Nat} {input below : List Char}

/-! ## Single tokens in front of a line end -/

/-- A place in a text that stands above another one. -/
def above (c : Cursor) (below : List Char) : Cursor :=
  ⟨c.rest ++ '\n' :: below, c.line⟩

/-- A run of characters goes no further than to the end of the line. -/
lemma takeWhile_above {p : Char → Bool} (hp : p '\n' = false) (input below : List Char) :
    (input ++ '\n' :: below).takeWhile p = input.takeWhile p ∧
      (input ++ '\n' :: below).dropWhile p = input.dropWhile p ++ '\n' :: below := by
  induction input with
  | nil => simp [hp]
  | cons ch rest ih =>
    by_cases hch : p ch = true
    · simp [hch, ih]
    · simp [hch]

lemma readNumber_above (line : Nat) (input below : List Char) :
    readNumber line (input ++ '\n' :: below) =
      ((readNumber line input).1, (readNumber line input).2.above below) := by
  obtain ⟨htake, hdrop⟩ := takeWhile_above (p := Char.isDigit) (by decide) input below
  unfold readNumber
  rw [htake, hdrop]
  rcases input.dropWhile Char.isDigit with _ | ⟨point, rest⟩
  · rfl
  · by_cases hpoint : point = '.'
    · obtain ⟨htake', hdrop'⟩ := takeWhile_above (p := Char.isDigit) (by decide) rest below
      subst hpoint
      simp only [List.cons_append, htake', hdrop', above]
    · simp [hpoint, above]

lemma readWord_above (line : Nat) (input below : List Char) :
    readWord line (input ++ '\n' :: below) =
      ((readWord line input).1, (readWord line input).2.above below) := by
  obtain ⟨htake, hdrop⟩ := takeWhile_above (p := isWordChar) (by decide) input below
  rw [readWord, readWord, htake, hdrop]
  rfl

lemma closeQuote_above {body : List Char} (h : closeQuote line body input = (.ok token, next)) :
    closeQuote line body (input ++ '\n' :: below) = (.ok token, next.above below) := by
  unfold closeQuote at h
  split at h <;> cases h
  rfl

/-- The hexadecimal digits of an escape are on the line of the escape. -/
lemma hexDigits_above (input below : List Char) :
    ((input ++ '\n' :: below).take 2).takeWhile isHexDigit =
      (input.take 2).takeWhile isHexDigit := by
  have hnewline : isHexDigit '\n' = false := by decide
  rcases input with _ | ⟨a, _ | ⟨b, rest⟩⟩
  · simp [hnewline]
  · simp [hnewline, List.takeWhile_cons]
  · rfl

lemma readQuoted_above (h : readQuoted line input = (.ok token, next)) :
    readQuoted line (input ++ '\n' :: below) = (.ok token, next.above below) := by
  unfold readQuoted at h
  split at h
  case h_1 rest =>
    have hdigits := (List.takeWhile_prefix isHexDigit).trans (List.take_prefix 2 rest)
    change (let digits := ((rest ++ '\n' :: below).take 2).takeWhile isHexDigit
      closeQuote line ('\\' :: 'x' :: digits) ((rest ++ '\n' :: below).drop digits.length)) = _
    rw [hexDigits_above]
    dsimp only
    rw [List.drop_append_of_le_length hdigits.length_le]
    exact closeQuote_above h
  case h_3 ch rest hx hnewline =>
    simp only [List.cons_append, readQuoted]
    exact closeQuote_above h
  case h_7 ch rest hx hnewline hescaped hlone hquote hbreak =>
    have hescape : ch ≠ '\\' := by
      rintro rfl
      rcases rest with _ | ⟨escaped, rest⟩
      · exact hlone rfl rfl
      · exact hescaped escaped rest rfl rfl
    have hread : readQuoted line (ch :: (rest ++ '\n' :: below)) =
        closeQuote line [ch] (rest ++ '\n' :: below) := by
      unfold readQuoted
      split <;> simp_all
    exact hread.trans (closeQuote_above h)
  all_goals cases h

lemma readFrom_above (below : List Char) {ch : Char} {rest : List Char}
    (h : readFrom line ch rest = (.ok token, next)) :
    readFrom line ch (rest ++ '\n' :: below) = (.ok token, next.above below) := by
  unfold readFrom at h ⊢
  split
  · next hdigit =>
    rw [if_pos hdigit] at h
    cases h
    rw [← List.cons_append, readNumber_above]
    rfl
  · next hdigit =>
    rw [if_neg hdigit] at h
    split
    · next hstart =>
      rw [if_pos hstart] at h
      cases h
      rw [← List.cons_append, readWord_above]
      rfl
    · next hstart =>
      rw [if_neg hstart] at h
      split
      · next hquote =>
        rw [if_pos hquote] at h
        exact readQuoted_above h
      · next hquote =>
        rw [if_neg hquote] at h
        split at h <;> cases h
        rfl

/-- No operator of two characters ends with a line end. -/
lemma ofPair?_newline (ch : Char) : TokenKind.ofPair? ch '\n' = none := by
  cases h : TokenKind.ofPair? ch '\n' with
  | none => rfl
  | some kind => exact absurd rfl (ne_newline_of_ofPair? h).2

lemma readHere_above (hinput : input ≠ []) (h : readHere line input = (.ok token, next)) :
    readHere line (input ++ '\n' :: below) = (.ok token, next.above below) := by
  rcases input with _ | ⟨a, _ | ⟨b, rest⟩⟩
  · exact absurd rfl hinput
  · simp only [List.cons_append, List.nil_append, readHere, ofPair?_newline] at h ⊢
    have hread := readFrom_above below h
    exact hread
  · simp only [List.cons_append, readHere] at h ⊢
    split at h
    · cases h
      rfl
    · have hread := readFrom_above below h
      exact hread

/-! ## Blanks and comments in front of a line end -/

/-- A mark in front of which a line stands is in the line. -/
lemma not_begins_above {mark : Char} (hmark : mark ≠ '\n')
    (h : ∀ tail, input = mark :: tail → False) :
    ∀ tail, input ++ '\n' :: below = mark :: tail → False := by
  intro tail hbegins
  rcases input with _ | ⟨ch, rest⟩
  · exact hmark (List.cons.inj hbegins).1.symm
  · exact h rest (by rw [(List.cons.inj hbegins).1])

/-- What can be passed over ends at the line end at the latest, where it goes on with the text
below, or at the first character of a token, where it ends as before. -/
lemma skip_above {mode : Trivia} (h : skip mode line input = (none, start)) :
    skip mode line (input ++ '\n' :: below) =
      if start.rest = [] then skip .blanks (start.line + 1) below
      else (none, start.above below) := by
  fun_induction skip mode line input with
  | case1 line rest ih | case2 line rest ih | case5 line rest ih | case7 opened line rest ih =>
    exact ih h
  | case3 line ch rest hline hblock hblank ih =>
    rw [List.cons_append, skip, if_pos hblank, ih h]
    · exact fun tail hch => not_begins_above (by decide) (fun tail => hline tail hch) tail
    · exact fun tail hch => not_begins_above (by decide) (fun tail => hblock tail hch) tail
  | case4 line ch rest hline hblock hblank =>
    cases h
    rw [if_neg (List.cons_ne_nil ch rest), List.cons_append, skip, if_neg hblank]
    · rfl
    · exact fun tail hch => not_begins_above (by decide) (fun tail => hline tail hch) tail
    · exact fun tail hch => not_begins_above (by decide) (fun tail => hblock tail hch) tail
  | case6 line ch rest hline ih => rw [List.cons_append, skip, if_neg hline, ih h]
  | case8 opened line ch rest hclosed ih =>
    rw [List.cons_append, skip, ih h]
    exact fun tail hch => not_begins_above (by decide) (fun tail => hclosed tail hch) tail
  | case9 opened line => cases h
  | case10 mode line hopen =>
    cases h
    rw [if_pos rfl]
    cases mode with
    | blanks => rfl
    | lineComment => rfl
    | blockComment opened => exact absurd rfl (hopen opened)

/-! ## The next token of a text above another one -/

/-- A token in front of the end of the upper text is read whether or not there is a text below. -/
lemma readToken_above (h : c.readToken = (.ok token, next)) (inner : token.kind ≠ .endOfInput) :
    (c.above below).readToken = (.ok token, next.above below) := by
  unfold readToken at h
  split at h
  · cases h
  · next start htrivia =>
    have hstart : start.rest ≠ [] := by
      intro hnil
      rw [hnil] at h
      cases h
      exact inner rfl
    have hskip : (c.above below).skipTrivia = (none, start.above below) :=
      (skip_above htrivia).trans (if_neg hstart)
    rw [readToken, hskip]
    exact readHere_above hstart h

/-- The end of the input is read at the end only. -/
lemma eq_nil_of_readHere (h : readHere line input = (.ok token, next))
    (hend : token.kind = .endOfInput) : input = [] := by
  obtain ⟨rfl, -⟩ | hmatches := matches_of_readHere h
  · rfl
  · exact absurd hend hmatches.ne_endOfInput

/-- In front of the end of the input there is at most trivia. -/
lemma trivia_of_readToken (h : c.readToken = (.ok (.endOfInput last), next)) :
    c.skipTrivia = (none, ⟨[], last⟩) ∧ next = ⟨[], last⟩ := by
  unfold readToken at h
  split at h
  · cases h
  · next start htrivia =>
    have hnil : start.rest = [] := eq_nil_of_readHere h rfl
    obtain ⟨rest, line⟩ := start
    subst hnil
    cases h
    exact ⟨htrivia, rfl⟩

/-- At the end of the upper text reading goes on with the text below. -/
lemma readToken_above_of_end (h : c.readToken = (.ok (.endOfInput last), next)) :
    (c.above below).readToken = readToken ⟨below, last + 1⟩ := by
  have hskip : (c.above below).skipTrivia = skipTrivia ⟨below, last + 1⟩ :=
    (skip_above (trivia_of_readToken h).1).trans (if_pos rfl)
  rw [readToken, readToken, hskip]

/-! ## Further down -/

/-- The same place with more lines above it. -/
def down (c : Cursor) (k : Nat) : Cursor :=
  ⟨c.rest, c.line + k⟩

/-- The same trivia with more lines above them. -/
def Trivia.down (k : Nat) : Trivia → Trivia
  | .blockComment opened => .blockComment (opened + k)
  | .blanks => .blanks
  | .lineComment => .lineComment

/-- What is read with more lines above it. -/
def downRead (k : Nat) : Except Fault Token × Cursor → Except Fault Token × Cursor
  | (.ok token, next) => (.ok (token.reline (· + k)), next.down k)
  | (.error fault, next) => (.error (fault.relabel (.lines (· + k))), next.down k)

lemma lineAfter_down (ch : Char) (line k : Nat) :
    lineAfter ch (line + k) = lineAfter ch line + k := by
  unfold lineAfter
  split
  · omega
  · rfl

lemma skip_down (mode : Trivia) (line k : Nat) (input : List Char) :
    skip (mode.down k) (line + k) input =
      ((skip mode line input).1.map (· + k), (skip mode line input).2.down k) := by
  fun_induction skip mode line input with
  | case1 line rest ih | case2 line rest ih | case7 opened line rest ih => exact ih
  | case3 line ch rest hline hblock hblank ih =>
    rw [Trivia.down, skip, if_pos hblank, lineAfter_down]
    · exact ih
    · exact hline
    · exact hblock
  | case4 line ch rest hline hblock hblank =>
    rw [Trivia.down, skip, if_neg hblank]
    · rfl
    · exact hline
    · exact hblock
  | case5 line rest ih =>
    rw [Trivia.down, skip, if_pos rfl, Nat.add_right_comm]
    exact ih
  | case6 line ch rest hline ih =>
    rw [Trivia.down, skip, if_neg hline]
    exact ih
  | case8 opened line ch rest hclosed ih =>
    rw [Trivia.down, skip, lineAfter_down]
    · exact ih
    · exact hclosed
  | case9 opened line => rfl
  | case10 mode line hopen =>
    cases mode with
    | blanks => rfl
    | lineComment => rfl
    | blockComment opened => exact absurd rfl (hopen opened)

lemma readNumber_down (line k : Nat) (input : List Char) : readNumber (line + k) input =
    ((readNumber line input).1.reline (· + k), (readNumber line input).2.down k) := by
  unfold readNumber
  split <;> rfl

lemma closeQuote_down (line k : Nat) (body input : List Char) :
    closeQuote (line + k) body input = downRead k (closeQuote line body input) := by
  unfold closeQuote
  split <;> rfl

lemma readQuoted_down (line k : Nat) (input : List Char) :
    readQuoted (line + k) input = downRead k (readQuoted line input) := by
  unfold readQuoted
  split
  case h_1 | h_3 | h_7 => exact closeQuote_down line k _ _
  case h_2 rest =>
    rw [Nat.add_right_comm]
    rfl
  all_goals rfl

lemma readFrom_down (line k : Nat) (ch : Char) (rest : List Char) :
    readFrom (line + k) ch rest = downRead k (readFrom line ch rest) := by
  unfold readFrom
  split
  · rw [readNumber_down]
    rfl
  split
  · rfl
  split
  · exact readQuoted_down line k rest
  split <;> rfl

lemma readHere_down (line k : Nat) (input : List Char) :
    readHere (line + k) input = downRead k (readHere line input) := by
  unfold readHere
  split
  · rfl
  · split
    · rfl
    · exact readFrom_down line k _ _
  · exact readFrom_down line k _ []

lemma readToken_down (c : Cursor) (k : Nat) :
    (c.down k).readToken = downRead k c.readToken := by
  have hskip : (c.down k).skipTrivia = (c.skipTrivia.1.map (· + k), c.skipTrivia.2.down k) :=
    skip_down .blanks c.line k c.rest
  rw [readToken, readToken, hskip]
  rcases c.skipTrivia with ⟨_ | opened, start⟩
  · exact readHere_down start.line k start.rest
  · rfl

/-! ## All tokens -/

/-- From the place on the tokens are read one after the other, and then the end of the input on
the line `last`. -/
inductive Lexes : Cursor → List Token → Nat → Prop
  | finish {c next : Cursor} {last : Nat}
      (read : c.readToken = (.ok (.endOfInput last), next)) : Lexes c [] last
  | token {c next : Cursor} {token : Token} {ts : List Token} {last : Nat}
      (read : c.readToken = (.ok token, next)) (inner : token.kind ≠ .endOfInput)
      (rest : Lexes next ts last) : Lexes c (token :: ts) last

variable {c' : Cursor} {ts ts' : List Token} {last' : Nat}

namespace Lexes

/-- Reading goes on in the same way from places with the same next token. -/
lemma congr (h : c.readToken = c'.readToken) (hc : Lexes c ts last) : Lexes c' ts last := by
  cases hc with
  | finish read => exact .finish (h ▸ read)
  | token read inner rest => exact .token (h ▸ read) inner rest

/-- What is in front of the end of the input has texts of its kinds. -/
lemma matches_of_mem (h : Lexes c ts last) :
    ∀ token ∈ ts, token.kind.Matches token.text.toList := by
  induction h with
  | finish read => exact List.forall_mem_nil _
  | token read inner rest ih =>
    refine List.forall_mem_cons.mpr ⟨?_, ih⟩
    obtain ⟨line, rfl⟩ | hmatches := matches_of_readToken read
    · exact absurd rfl inner
    · exact hmatches

/-- The end of the input is on the last line. -/
lemma last_eq (h : Lexes c ts last) : last = c.lastLine := by
  induction h with
  | @finish c next last read =>
    obtain ⟨line, _, hreads⟩ := c.exists_readToken_readsOn
    rw [read] at hreads
    obtain ⟨_, rfl⟩ := trivia_of_readToken read
    exact hreads.reaches.lastLine_eq
  | @token c next token ts last read inner rest ih =>
    obtain ⟨line, _, hreads⟩ := c.exists_readToken_readsOn
    rw [read] at hreads
    exact ih.trans hreads.reaches.lastLine_eq

/-- A text above another one is read as before, and then comes the other one. -/
lemma above (h : Lexes c ts last) (h' : Lexes ⟨below, last + 1⟩ ts' last') :
    Lexes (c.above below) (ts ++ ts') last' := by
  induction h with
  | finish read => exact h'.congr (readToken_above_of_end read).symm
  | token read inner rest ih => exact .token (readToken_above read inner) inner (ih h')

/-- With more lines above it a text is read in the same way, only further down. -/
lemma down (k : Nat) (h : Lexes c ts last) :
    Lexes (c.down k) (ts.map (Token.reline (· + k))) (last + k) := by
  induction h with
  | @finish c next last read =>
    have hread := readToken_down c k
    rw [read] at hread
    exact .finish hread
  | @token c next token ts last read inner rest ih =>
    have hread := readToken_down c k
    rw [read] at hread
    exact .token hread inner ih

end Lexes

/-- What is read up to the end of the input is read in few steps. -/
lemma Lexes.drained (h : Lexes c ts last) : ∀ {steps : Nat}, c.rest.length < steps →
    (drainWithin steps c).fault? = none ∧
      (drainWithin steps c).tokens = ts ++ [Token.endOfInput last] := by
  induction h with
  | finish read =>
    intro steps hsteps
    obtain ⟨k, rfl⟩ : ∃ k, steps = k + 1 := ⟨steps - 1, by omega⟩
    simp [drainWithin, read, Token.endOfInput]
  | @token c next token ts last read inner rest ih =>
    intro steps hsteps
    obtain ⟨k, rfl⟩ : ∃ k, steps = k + 1 := ⟨steps - 1, by omega⟩
    have hshorter := readToken_length_lt read inner
    have hk : next.rest.length < k := by omega
    simp [drainWithin, read, inner, ih hk]

lemma lexes_of_drained : ∀ {steps : Nat} {c : Cursor} {ts : List Token},
    (drainWithin steps c).fault? = none →
    (drainWithin steps c).tokens = ts ++ [Token.endOfInput last] → Lexes c ts last
  | 0, _, ts, _, htokens => absurd htokens.symm (by simp [drainWithin])
  | steps + 1, c, ts, hfault, htokens => by
    rcases hread : c.readToken with ⟨fault | token, next⟩
    · simp [drainWithin, hread] at hfault
    · by_cases hend : token.kind = .endOfInput
      · have hlast : ts ++ [Token.endOfInput last] = [token] := by
          simpa [drainWithin, hread, hend] using htokens.symm
        rcases List.append_eq_singleton_iff.mp hlast with ⟨rfl, htoken⟩ | ⟨_, hnil⟩
        · cases htoken
          exact .finish hread
        · cases hnil
      · simp only [drainWithin, hread, if_neg hend] at hfault htokens
        rcases ts with _ | ⟨first, rest⟩
        · obtain ⟨rfl, _⟩ := List.cons.inj htokens
          exact absurd rfl hend
        · obtain ⟨rfl, hrest⟩ := List.cons.inj htokens
          exact .token hread hend (lexes_of_drained hfault hrest)

end Cursor

namespace Source

variable {source : String} {ts : List Token} {last : Nat}

/-- The tokens of a source are those that are read from its beginning on. -/
lemma tokens_eq_iff :
    tokens source = .ok (ts ++ [Token.endOfInput last]) ↔
      (Cursor.ofString source).Lexes ts last := by
  have hfault : ∀ fault, (Cursor.ofString source).drain.fault? = some fault →
      tokens source = .error fault := by
    intro fault hfault
    simp [tokens, Lexer.tokenize, Lexer.ofString, hfault]
  have hread : (Cursor.ofString source).drain.fault? = none →
      tokens source = .ok (Cursor.ofString source).drain.tokens := by
    intro hnone
    simp [tokens, Lexer.tokenize, Lexer.ofString, hnone]
  constructor
  · intro h
    cases hstop : (Cursor.ofString source).drain.fault? with
    | some fault => cases h.symm.trans (hfault fault hstop)
    | none =>
      rw [hread hstop] at h
      exact Cursor.lexes_of_drained hstop (Except.ok.inj h)
  · intro h
    obtain ⟨hnone, htokens⟩ := h.drained (Nat.lt_succ_self _)
    exact (hread hnone).trans (congrArg Except.ok htokens)

/-- What is read without a fault ends with the end of the input. -/
lemma exists_lexes_of_tokens (h : tokens source = .ok ts) : ∃ inner last,
    ts = inner ++ [Token.endOfInput last] ∧ (Cursor.ofString source).Lexes inner last := by
  obtain ⟨inner, _, ⟨last, hinner, _⟩ | ⟨fault, hfault, _⟩⟩ := Parser.ofLexer_ofString source
  · obtain rfl := Except.ok.inj (h.symm.trans hinner)
    exact ⟨inner, last, rfl, tokens_eq_iff.mp hinner⟩
  · rw [h] at hfault
    cases hfault

/-- The tokens of a text above another one are the tokens of both, those of the lower text
further down. -/
theorem tokens_above {below : String} {ts' : List Token} {last' : Nat}
    (h : tokens source = .ok (ts ++ [Token.endOfInput last]))
    (h' : tokens below = .ok (ts' ++ [Token.endOfInput last'])) :
    tokens (source ++ "\n" ++ below) =
      .ok (ts ++ ts'.map (Token.reline (· + last)) ++ [Token.endOfInput (last' + last)]) := by
  have habove : Cursor.ofString (source ++ "\n" ++ below) =
      (Cursor.ofString source).above below.toList := by
    simp [Cursor.ofString, Cursor.above]
  have hdown : (Cursor.ofString below).down last = ⟨below.toList, last + 1⟩ :=
    congrArg (Cursor.mk below.toList) (Nat.add_comm 1 last)
  rw [tokens_eq_iff] at h h' ⊢
  rw [habove]
  exact h.above (hdown ▸ h'.down last)

/-- The end of the input is on the line that is reached by as many line ends as there are. -/
lemma last_eq_of_tokens (h : tokens source = .ok (ts ++ [Token.endOfInput last])) :
    last = 1 + source.toList.count '\n' :=
  (tokens_eq_iff.mp h).last_eq

end Source

end BlockLang
