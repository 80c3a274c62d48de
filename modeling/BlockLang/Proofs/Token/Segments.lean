import BlockLang.Proofs.Token.Seams
import Mathlib

/-!
# Tokens and what separates them

A text that can be read to its end is cut into segments, each of them a gap of blanks and comments
and the text of a token behind it, and a last gap (`Source.tokens_segments`).  No character is
lost, each gap is as long as a gap can be, each token is the longest one that its place allows, its
kind is the one that its text asks for, and its line is counted by the line ends in front of it.

`IsGap` says what gaps are.  What `Cursor.skip` passes over is a gap (`Cursor.gap_of_skip`), and it
passes over every gap (`IsGap.skip_eq`), so that behind it no gap begins.
-/

namespace BlockLang

variable {gap more behind : List Char} {line : Nat}

/-! ## Gaps -/

/-- Blanks and comments in front of `behind`.  A comment that begins with two strokes is over where
the line or the input is, and one that begins with a stroke and a star at the first closing mark. -/
inductive IsGap : List Char → List Char → Prop
  | nil (behind : List Char) : IsGap [] behind
  | blank {c : Char} {gap behind : List Char} (hblank : Text.isBlank c = true)
      (h : IsGap gap behind) : IsGap (c :: gap) behind
  | lineComment {comment gap behind : List Char} (hcomment : '\n' ∉ comment)
      (hend : ∀ c ∈ (gap ++ behind).head?, c = '\n') (h : IsGap gap behind) :
      IsGap ('/' :: '/' :: (comment ++ gap)) behind
  | blockComment {comment gap behind : List Char} (hcomment : ¬ ['*', '/'] <:+: comment)
      (h : IsGap gap behind) : IsGap ('/' :: '*' :: (comment ++ '*' :: '/' :: gap)) behind

/-- A gap that does not go on in what is behind it. -/
structure IsMaximalGap (gap behind : List Char) : Prop where
  isGap : IsGap gap behind
  eq_nil : ∀ more later, behind = more ++ later → IsGap (gap ++ more) later → more = []

namespace Cursor

/-! ### Every gap is passed over -/

lemma lineAfter_add_count (c : Char) (line : Nat) (rest : List Char) :
    lineAfter c line + rest.count '\n' = line + (c :: rest).count '\n' := by
  by_cases hc : c = '\n'
  · simp [lineAfter, hc]
    omega
  · simp [lineAfter, hc]

lemma skip_blank {c : Char} (hblank : Text.isBlank c = true) (line : Nat) (rest : List Char) :
    skip .blanks line (c :: rest) = skip .blanks (lineAfter c line) rest := by
  have hstroke : c ≠ '/' := by
    rintro rfl
    exact absurd hblank (by decide)
  rw [skip]
  · exact if_pos hblank
  all_goals exact fun _ hc => absurd hc hstroke

/-- A comment up to the end of the line. -/
lemma skip_lineComment : ∀ {comment rest : List Char}, '\n' ∉ comment →
    (∀ c ∈ rest.head?, c = '\n') → skip .lineComment line (comment ++ rest) = skip .blanks line rest
  | [], [], _, _ => rfl
  | [], c :: rest, _, hend => by
    obtain rfl := hend c rfl
    rfl
  | c :: comment, rest, hcomment, hend => by
    obtain ⟨hc, hcomment⟩ := List.ne_and_not_mem_of_not_mem_cons hcomment
    rw [List.cons_append, skip, if_neg hc.symm, skip_lineComment hcomment hend]

/-- A comment up to the closing mark. -/
lemma skip_blockComment {opened : Nat} {rest : List Char} :
    ∀ {comment : List Char} {line : Nat}, ¬ ['*', '/'] <:+: comment →
    skip (.blockComment opened) line (comment ++ '*' :: '/' :: rest) =
      skip .blanks (line + comment.count '\n') rest
  | [], _, _ => rfl
  | c :: comment, line, hcomment => by
    rw [List.infix_cons_iff, not_or] at hcomment
    obtain ⟨hopen, hcomment⟩ := hcomment
    have hnot : ∀ tail, c = '*' → comment ++ '*' :: '/' :: rest ≠ '/' :: tail := by
      rintro tail rfl htail
      cases comment with
      | nil => cases htail
      | cons d comment =>
        obtain rfl := (List.cons.inj htail).1
        exact hopen ⟨comment, rfl⟩
    rw [List.cons_append, skip, skip_blockComment hcomment, lineAfter_add_count]
    exact hnot

end Cursor

/-- What is behind a gap is the same with and without it, except that the gap may have lines. -/
lemma IsGap.skip_eq (h : IsGap gap behind) : ∀ line,
    Cursor.skip .blanks line (gap ++ behind) =
      Cursor.skip .blanks (line + gap.count '\n') behind := by
  induction h with
  | nil behind => exact fun _ => rfl
  | @blank c gap behind hblank _ ih =>
    intro line
    rw [List.cons_append, Cursor.skip_blank hblank, ih, Cursor.lineAfter_add_count]
  | @lineComment comment gap behind hcomment hend _ ih =>
    intro line
    have hlines : ('/' :: '/' :: (comment ++ gap)).count '\n' = gap.count '\n' := by
      simp [List.count_eq_zero_of_not_mem hcomment]
    rw [List.cons_append, List.cons_append, List.append_assoc, Cursor.skip,
      Cursor.skip_lineComment hcomment hend, ih, hlines]
  | @blockComment comment gap behind hcomment _ ih =>
    intro line
    have hlines : ('/' :: '*' :: (comment ++ '*' :: '/' :: gap)).count '\n' =
        comment.count '\n' + gap.count '\n' := by
      simp
    rw [List.cons_append, List.cons_append, List.append_assoc, List.cons_append, List.cons_append,
      Cursor.skip, Cursor.skip_blockComment hcomment, ih, hlines, Nat.add_assoc]

namespace Cursor

/-! ### What is passed over is a gap -/

/-- What is passed over in each of the modes. -/
def Trivia.Passes (mode : Trivia) (gap behind : List Char) : Prop :=
  match mode with
  | .blanks => IsGap gap behind
  | .lineComment => ∃ comment gap', gap = comment ++ gap' ∧ '\n' ∉ comment ∧
      (∀ c ∈ (gap' ++ behind).head?, c = '\n') ∧ IsGap gap' behind
  | .blockComment _ => ∃ comment gap', gap = comment ++ '*' :: '/' :: gap' ∧
      ¬ ['*', '/'] <:+: comment ∧ IsGap gap' behind

lemma passes_of_skip {mode : Trivia} {input : List Char} {start : Cursor}
    (h : skip mode line input = (none, start)) : ∃ gap, input = gap ++ start.rest ∧
      mode.Passes gap start.rest ∧ skip .blanks start.line start.rest = (none, start) := by
  fun_induction skip mode line input with
  | case1 line rest ih =>
    obtain ⟨_, rfl, ⟨comment, gap, rfl, hcomment, hend, hgap⟩, hstop⟩ := ih h
    exact ⟨_, rfl, .lineComment hcomment hend hgap, hstop⟩
  | case2 line rest ih =>
    obtain ⟨_, rfl, ⟨comment, gap, rfl, hcomment, hgap⟩, hstop⟩ := ih h
    exact ⟨_, rfl, .blockComment hcomment hgap, hstop⟩
  | case3 line c rest _ _ hblank ih =>
    obtain ⟨gap, rfl, hgap, hstop⟩ := ih h
    exact ⟨c :: gap, rfl, .blank hblank hgap, hstop⟩
  | case4 line c rest hline hblock hblank =>
    cases h
    refine ⟨[], rfl, .nil _, ?_⟩
    rw [skip, if_neg hblank]
    · exact hline
    · exact hblock
  | case5 line rest ih =>
    obtain ⟨gap, rfl, hgap, hstop⟩ := ih h
    exact ⟨'\n' :: gap, rfl, ⟨[], _, rfl, List.not_mem_nil, by simp, .blank (by decide) hgap⟩,
      hstop⟩
  | case6 line c rest hc ih =>
    obtain ⟨_, rfl, ⟨comment, gap, rfl, hcomment, hend, hgap⟩, hstop⟩ := ih h
    refine ⟨c :: (comment ++ gap), rfl, ⟨c :: comment, gap, rfl, ?_, hend, hgap⟩, hstop⟩
    exact List.not_mem_cons_of_ne_of_not_mem (Ne.symm hc) hcomment
  | case7 opened line rest ih =>
    obtain ⟨gap, rfl, hgap, hstop⟩ := ih h
    exact ⟨'*' :: '/' :: gap, rfl, ⟨[], gap, rfl, by simp, hgap⟩, hstop⟩
  | case8 opened line c rest hclose ih =>
    obtain ⟨_, rfl, ⟨comment, gap, rfl, hcomment, hgap⟩, hstop⟩ := ih h
    refine ⟨c :: (comment ++ '*' :: '/' :: gap), rfl, ⟨c :: comment, gap, rfl, ?_, hgap⟩, hstop⟩
    rw [List.infix_cons_iff, not_or]
    refine ⟨?_, hcomment⟩
    rintro ⟨tail, hmark⟩
    obtain ⟨rfl, rfl⟩ := List.cons.inj hmark
    exact hclose _ rfl rfl
  | case9 opened line => cases h
  | case10 mode line hmode =>
    cases h
    refine ⟨[], rfl, ?_, rfl⟩
    cases mode with
    | blanks => exact .nil []
    | lineComment => exact ⟨[], [], rfl, List.not_mem_nil, by simp, .nil []⟩
    | blockComment opened => exact absurd rfl (hmode opened)

/-- What is passed over in front of a token is a gap, which goes as far as it can. -/
lemma gap_of_skipTrivia {c start : Cursor} (h : c.skipTrivia = (none, start)) :
    ∃ gap, c.rest = gap ++ start.rest ∧ IsMaximalGap gap start.rest ∧
      start.line = c.line + gap.count '\n' := by
  obtain ⟨gap, hrest, hgap, hstop⟩ := passes_of_skip h
  have hlast : start.lastLine = c.lastLine := by
    have hreaches : c.Reaches c.skipTrivia.2 := skip_reaches .blanks c.line c.rest
    rw [h] at hreaches
    exact hreaches.lastLine_eq
  refine ⟨gap, hrest, ⟨hgap, ?_⟩, ?_⟩
  · -- A gap that goes on is passed over as a whole, and then too little is left.
    intro more later hmore hlonger
    have hskip := hlonger.skip_eq c.line
    rw [List.append_assoc, ← hmore, ← hrest] at hskip
    have hsuffix := skip_isSuffix .blanks (c.line + (gap ++ more).count '\n') later
    have hstart : skip .blanks c.line c.rest = (none, start) := h
    rw [← hskip, hstart, hmore] at hsuffix
    have hlength := hsuffix.length_le
    rw [List.length_append] at hlength
    exact List.length_eq_zero_iff.mp (by omega)
  · rw [lastLine, lastLine, hrest, List.count_append] at hlast
    omega

end Cursor

/-! ## Segments -/

/-- A token with the gap in front of it. -/
structure Segment where
  gap : List Char
  token : Token

namespace Segment

/-- The characters of a segment. -/
def chars (s : Segment) : List Char :=
  s.gap ++ s.token.text.toList

/-- The characters of segments, one behind the other. -/
def allChars (segments : List Segment) : List Char :=
  segments.flatMap chars

/-- The segment is what it has to be between `before` and `behind`. -/
structure Fits (before : List Char) (s : Segment) (behind : List Char) : Prop where
  gap : IsMaximalGap s.gap (s.token.text.toList ++ behind)
  kind_iff : ∀ kind : TokenKind, kind.Matches s.token.text.toList ↔ kind = s.token.kind
  length_le : ∀ (kind : TokenKind) (text : List Char), kind.Matches text →
    text <+: s.token.text.toList ++ behind → text.length ≤ s.token.text.toList.length
  line_eq : s.token.line = 1 + (before ++ s.gap).count '\n'

end Segment

namespace Cursor

variable {c next : Cursor} {token : Token} {ts : List Token} {last : Nat}

/-- What a token and the gap in front of it are. -/
lemma segment_of_readToken (h : c.readToken = (.ok token, next))
    (inner : token.kind ≠ .endOfInput) {before : List Char}
    (hbefore : c.line = 1 + before.count '\n') : ∃ gap,
      c.rest = Segment.chars ⟨gap, token⟩ ++ next.rest ∧
      Segment.Fits before ⟨gap, token⟩ next.rest ∧
      next.line = 1 + (before ++ Segment.chars ⟨gap, token⟩).count '\n' := by
  obtain ⟨line, _, hreads⟩ := c.exists_readToken_readsOn
  rw [h] at hreads
  have hlast : next.lastLine = c.lastLine := hreads.reaches.lastLine_eq
  unfold readToken at h
  split at h
  · cases h
  · next start htrivia =>
    obtain ⟨gap, hrest, hgap, hline⟩ := gap_of_skipTrivia htrivia
    have htext := readHere_text_append h
    obtain ⟨_, rfl⟩ | hmatches := matches_of_readHere h
    · exact absurd rfl inner
    have hchars : c.rest = Segment.chars ⟨gap, token⟩ ++ next.rest := by
      rw [hrest, ← htext, ← List.append_assoc]
      rfl
    have hstands := readHere_readsOn start.line start.rest
    rw [h] at hstands
    refine ⟨gap, hchars, ⟨htext ▸ hgap, ?_, ?_, ?_⟩, ?_⟩
    · exact fun kind => ⟨fun hkind => hkind.kind_unique hmatches, fun hkind => hkind ▸ hmatches⟩
    · intro kind text hkind hbegins
      exact hkind.length_le (htext ▸ hbegins) h
    · rw [hstands.standsOn, hline, hbefore, List.count_append, Nat.add_assoc]
    · rw [lastLine, lastLine, hchars, List.count_append] at hlast
      rw [List.count_append]
      omega

/-- What is read up to the end of the input is cut into segments, and the gap at the end. -/
lemma Lexes.segments (h : Lexes c ts last) : ∀ {before : List Char},
    c.line = 1 + before.count '\n' → ∃ (segments : List Segment) (gap : List Char),
      c.rest = Segment.allChars segments ++ gap ∧ ts = segments.map Segment.token ∧
      IsGap gap [] ∧ ∀ earlier s later, segments = earlier ++ s :: later →
        s.Fits (before ++ Segment.allChars earlier) (Segment.allChars later ++ gap) := by
  induction h with
  | @finish c next last read =>
    intro before _
    obtain ⟨htrivia, _⟩ := trivia_of_readToken read
    obtain ⟨gap, hrest, hgap, _⟩ := gap_of_skipTrivia htrivia
    refine ⟨[], gap, ?_, rfl, hgap.isGap, by simp⟩
    rw [hrest]
    simp [Segment.allChars]
  | @token c next token ts last read inner rest ih =>
    intro before hbefore
    obtain ⟨gap, hchars, hfits, hnext⟩ := segment_of_readToken read inner hbefore
    obtain ⟨segments, lastGap, hrest, rfl, hlastGap, hsegments⟩ := ih hnext
    refine ⟨⟨gap, token⟩ :: segments, lastGap, ?_, rfl, hlastGap, ?_⟩
    · rw [hchars, hrest]
      simp [Segment.allChars]
    · intro earlier s later hsplit
      cases earlier with
      | nil =>
        obtain ⟨rfl, rfl⟩ := List.cons.inj hsplit
        rw [← hrest]
        simpa [Segment.allChars] using hfits
      | cons first earlier =>
        rw [List.cons_append] at hsplit
        obtain ⟨rfl, htail⟩ := List.cons.inj hsplit
        simpa [Segment.allChars] using hsegments earlier s later htail

end Cursor

namespace Source

variable {source : String}

/-- Reading tokens loses nothing.  The source is gaps and texts of tokens in turn and a gap at the
end.  The gaps are as long as they can be, each token is the longest one in its place, its kind is
the one kind that its text is of, and its line, like that of the end of the input, is one more than
there are line ends in front of it. -/
theorem tokens_segments {ts : List Token} (h : tokens source = .ok ts) :
    ∃ (segments : List Segment) (gap : List Char),
      source.toList = Segment.allChars segments ++ gap ∧
      ts = segments.map Segment.token ++ [.endOfInput (1 + source.toList.count '\n')] ∧
      IsGap gap [] ∧ ∀ earlier s later, segments = earlier ++ s :: later →
        s.Fits (Segment.allChars earlier) (Segment.allChars later ++ gap) := by
  obtain ⟨inner, last, rfl, hlexes⟩ := exists_lexes_of_tokens h
  have hstart : (Cursor.ofString source).line = 1 + ([] : List Char).count '\n' := rfl
  obtain ⟨segments, gap, hchars, rfl, hgap, hsegments⟩ := hlexes.segments hstart
  exact ⟨segments, gap, hchars, by rw [last_eq_of_tokens h], hgap, hsegments⟩

/-- A star behind a block comment and a line comment in front of the end. -/
theorem tokens_segments_commented : ∃ (segments : List Segment) (gap : List Char),
    tokens "/*a\n*/* 1.// b" = .ok (segments.map Segment.token ++ [.endOfInput 2]) ∧
      "/*a\n*/* 1.// b".toList = Segment.allChars segments ++ gap ∧
      segments.map Segment.token = [⟨.times, "*", 2⟩, ⟨.float, "1.", 2⟩] ∧
      ∀ earlier s later, segments = earlier ++ s :: later →
        s.Fits (Segment.allChars earlier) (Segment.allChars later ++ gap) := by
  have htokens : tokens "/*a\n*/* 1.// b" =
      .ok [⟨.times, "*", 2⟩, ⟨.float, "1.", 2⟩, .endOfInput 2] := by cbv
  obtain ⟨segments, gap, hchars, hsplit, -, hsegments⟩ := tokens_segments htokens
  have hlast : [⟨.times, "*", 2⟩, ⟨.float, "1.", 2⟩, Token.endOfInput 2] =
      [⟨.times, "*", 2⟩, ⟨.float, "1.", 2⟩] ++ [Token.endOfInput 2] := rfl
  have hinner := (List.append_inj' (hlast.symm.trans hsplit) rfl).1
  exact ⟨segments, gap, by rw [htokens, hlast, hinner], hchars, hinner.symm, hsegments⟩

end Source

end BlockLang
