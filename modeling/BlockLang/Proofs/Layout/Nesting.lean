import BlockLang.Proofs.Layout.Overflow
import BlockLang.Proofs.Token.Segments

/-!
# Lines and braces of canonical forms

A canonical form is made of lines.  A line is an indentation of four spaces for each level and
behind it tokens, with at most one space between two of them (`Line`).  The level is the number of
braces that are open in front of the line, less one if the line begins with a closing brace; an
opening brace ends its line, and a closing brace begins its own (`Line.Fits`).

Pieces are followed from their beginning to their end, with the number of open braces and the last
word of the current line (`Piece.Flows`).  What carries the proof is that a level is nothing but
the number of open braces: the pieces of an expression at a level may stand behind a word while so
many braces are open (`Expr.begins`), and those of a statement at the beginning of a line
(`Stmt.flows`).  From the pieces the lines are read off (`Piece.Flows.laidOut`), and the result is
`Source.format_laid_out`.
-/

namespace BlockLang

/-! ## Braces -/

/-- How many braces are open behind some tokens. -/
def Token.openBraces (ts : List Token) : Nat :=
  ts.countP (·.kind = .lbrace) - ts.countP (·.kind = .rbrace)

/-- Each closing brace closes one that is open, and in the end none is open. -/
structure Token.Balanced (ts : List Token) : Prop where
  le : ∀ before, before <+: ts →
    before.countP (·.kind = .rbrace) ≤ before.countP (·.kind = .lbrace)
  eq : ts.countP (·.kind = .rbrace) = ts.countP (·.kind = .lbrace)

/-- How many braces a token of a kind opens. -/
def TokenKind.opened (kind : TokenKind) : Nat :=
  if kind = .lbrace then 1 else 0

/-- How many braces a token of a kind closes. -/
def TokenKind.closed (kind : TokenKind) : Nat :=
  if kind = .rbrace then 1 else 0

lemma TokenKind.add_opened {kind : TokenKind} (hkind : kind ≠ .lbrace) (n : Nat) :
    n + kind.opened = n := by
  rw [opened, if_neg hkind, Nat.add_zero]

lemma TokenKind.add_closed {kind : TokenKind} (hkind : kind ≠ .rbrace) (n : Nat) :
    n + kind.closed = n := by
  rw [closed, if_neg hkind, Nat.add_zero]

namespace Token

variable {before ts : List Token} {token : Token} {n level : Nat}

/-- Behind the tokens `n` braces are open, and none was closed too often. -/
def LeavesOpen (ts : List Token) (n : Nat) : Prop :=
  ts.countP (·.kind = .rbrace) + n = ts.countP (·.kind = .lbrace)

lemma LeavesOpen.openBraces_eq (h : LeavesOpen ts n) : openBraces ts = n := by
  rw [LeavesOpen] at h
  rw [openBraces]
  omega

/-- A closing brace needs an open one. -/
lemma LeavesOpen.concat (h : LeavesOpen before n) (hlevel : level + token.kind.closed = n) :
    LeavesOpen (before ++ [token]) (level + token.kind.opened) := by
  rw [LeavesOpen] at h ⊢
  rw [List.countP_append, List.countP_append, List.countP_singleton, List.countP_singleton]
  simp only [TokenKind.closed, TokenKind.opened, decide_eq_true_eq] at hlevel ⊢
  omega

/-- Behind the tokens `before`, no brace is closed too often and in the end none is open. -/
structure Settles (before ts : List Token) : Prop where
  leavesOpen : ∀ part, part <+: ts → ∃ n, LeavesOpen (before ++ part) n
  leavesOpen_zero : LeavesOpen (before ++ ts) 0

lemma Settles.nil (h : LeavesOpen before 0) : Settles before [] where
  leavesOpen part hpart := by
    obtain rfl := List.prefix_nil.mp hpart
    exact ⟨0, by rwa [List.append_nil]⟩
  leavesOpen_zero := by rwa [List.append_nil]

lemma Settles.cons (h : LeavesOpen before n) (hrest : Settles (before ++ [token]) ts) :
    Settles before (token :: ts) where
  leavesOpen part hpart := by
    obtain rfl | ⟨later, rfl, hlater⟩ := List.prefix_cons_iff.mp hpart
    · exact ⟨n, by rwa [List.append_nil]⟩
    · obtain ⟨k, hk⟩ := hrest.leavesOpen later hlater
      exact ⟨k, by rwa [List.append_assoc] at hk⟩
  leavesOpen_zero := by
    have hend := hrest.leavesOpen_zero
    rwa [List.append_assoc] at hend

lemma Settles.balanced (h : Settles [] ts) : Balanced ts where
  le part hpart := by
    obtain ⟨n, hn⟩ := h.leavesOpen part hpart
    exact le_of_add_le_left hn.le
  eq := h.leavesOpen_zero

end Token

/-! ## Texts of tokens -/

/-- A text with no line end in it and no space at its ends. -/
structure IsTight (text : List Char) : Prop where
  newline_notMem : '\n' ∉ text
  head : ∃ c ∈ text.head?, c ≠ ' '
  last : ∃ c ∈ text.getLast?, c ≠ ' '

lemma isTight_of_forall {text : List Char} (hne : text ≠ [])
    (h : ∀ c ∈ text, c ≠ ' ' ∧ c ≠ '\n') : IsTight text where
  newline_notMem hmem := (h _ hmem).2 rfl
  head := ⟨text.head hne, List.head?_eq_some_head hne, (h _ (List.head_mem hne)).1⟩
  last := ⟨text.getLast hne, List.getLast?_eq_some_getLast hne, (h _ (List.getLast_mem hne)).1⟩

lemma isTight_of_isWord {text : String} (hword : isWord text = true) : IsTight text.toList := by
  rw [isWord] at hword
  split at hword
  · cases hword
  · next first tail heq =>
    rw [heq]
    simp only [Bool.and_eq_true, List.all_eq_true] at hword
    refine isTight_of_forall (List.cons_ne_nil _ _) fun c hc => ?_
    have hchar : Cursor.isWordChar c = true := by
      obtain rfl | hc := List.mem_cons.mp hc
      · exact Cursor.isWordChar_of_isWordStart hword.1
      · exact hword.2 c hc
    constructor <;> rintro rfl <;> exact absurd hchar (by decide)

lemma CharConstant.IsBody.newline_notMem {body : List Char} (h : IsBody body) : '\n' ∉ body := by
  cases h with
  | plain hplain =>
    rw [List.mem_singleton]
    rintro rfl
    exact absurd hplain (by decide)
  | @escape e he =>
    intro hmem
    obtain rfl : '\n' = e := by simpa using hmem
    exact absurd he (by decide)
  | @hex digits _ hdigits =>
    intro hmem
    have hdigit : '\n' ∈ digits := by simpa using hmem
    exact absurd (hdigits _ hdigit) (by decide)

/-- No token has a line end in it or a space at its ends. -/
lemma TokenKind.Matches.isTight {kind : TokenKind} {text : List Char} (h : kind.Matches text) :
    IsTight text := by
  have hdigit : ∀ c : Char, c.isDigit = true → c ≠ ' ' ∧ c ≠ '\n' := by
    intro c hc
    constructor <;> rintro rfl <;> exact absurd hc (by decide)
  cases h with
  | @fixed _ spelling h =>
    cases kind <;> cases h <;> first
      | exact isTight_of_isWord (by decide)
      | exact isTight_of_forall (by decide) (by simp)
  | name hword _ => exact isTight_of_isWord hword
  | integer hne hdigits => exact isTight_of_forall hne fun c hc => hdigit c (hdigits c hc)
  | float hne hwhole hfraction =>
    refine isTight_of_forall (by simp) fun c hc => ?_
    rw [List.mem_append, List.mem_cons] at hc
    obtain hc | rfl | hc := hc
    · exact hdigit c (hwhole c hc)
    · decide
    · exact hdigit c (hfraction c hc)
  | @char body hbody =>
    refine ⟨?_, ⟨'\'', rfl, by decide⟩, ⟨'\'', List.getLast?_concat, by decide⟩⟩
    simp [hbody.newline_notMem]

/-! ## Lines -/

/-- A line of a text: an indentation, and tokens with what separates them. -/
structure Line where
  level : Nat
  segments : List Segment

namespace Line

/-- The characters of a line, of which its end is not one. -/
def chars (l : Line) : List Char :=
  List.replicate (4 * l.level) ' ' ++ Segment.allChars l.segments

/-- The tokens of a line. -/
def tokens (l : Line) : List Token :=
  l.segments.map Segment.token

/-- The characters of lines, each with its end. -/
def allChars (lines : List Line) : List Char :=
  lines.flatMap fun l => l.chars ++ ['\n']

/-- The line is what it has to be behind the tokens `before`, if it is the line `number`. -/
structure Fits (before : List Token) (number : Nat) (l : Line) : Prop where
  newline_notMem : '\n' ∉ l.chars
  getLast?_ne : l.chars.getLast? ≠ some ' '
  line_eq : ∀ token ∈ l.tokens, token.line = number
  /-- Behind the indentation there is a token at once, and its kind decides the level. -/
  level_add : ∃ first ∈ l.segments.head?, first.gap = [] ∧
    (∃ c ∈ first.token.text.toList.head?, c ≠ ' ') ∧
    l.level + first.token.kind.closed = Token.openBraces before
  gap_eq : ∀ s ∈ l.segments.tail, s.gap = [] ∨ s.gap = [' ']
  lbrace_last : ∀ token ∈ l.tokens.dropLast, token.kind ≠ .lbrace
  rbrace_first : ∀ token ∈ l.tokens.tail, token.kind ≠ .rbrace

end Line

/-- The lines are what they have to be behind the tokens `before`, from the line `number` on. -/
inductive Arranged : List Token → Nat → List Line → Prop
  | nil (before : List Token) (number : Nat) : Arranged before number []
  | cons {before : List Token} {number : Nat} {l : Line} {later : List Line}
      (fits : l.Fits before number) (rest : Arranged (before ++ l.tokens) (number + 1) later) :
      Arranged before number (l :: later)

lemma Arranged.fits {before : List Token} {number : Nat} {earlier later : List Line} {l : Line}
    (h : Arranged before number (earlier ++ l :: later)) :
    l.Fits (before ++ earlier.flatMap Line.tokens) (number + earlier.length) := by
  induction earlier generalizing before number with
  | nil =>
    cases h with
    | cons fits _ => simpa using fits
  | cons first earlier ih =>
    cases h with
    | cons _ rest =>
      have hfits := ih rest
      rwa [List.append_assoc, ← List.flatMap_cons, Nat.add_assoc, Nat.add_comm 1,
        ← List.length_cons] at hfits

/-! ### Lines behind their first token -/

lemma IsTight.getLast?_append {text : List Char} (h : IsTight text) (front : List Char) :
    (front ++ text).getLast? ≠ some ' ' := by
  obtain ⟨c, hlast, hc⟩ := h.last
  rw [List.getLast?_append, Option.mem_def.mp hlast]
  exact fun hspace => hc (Option.some.inj hspace)

/-- A token of the line `number` that is not the first one. -/
structure Segment.IsInner (number : Nat) (s : Segment) : Prop where
  gap_eq : s.gap = [] ∨ s.gap = [' ']
  isTight : IsTight s.token.text.toList
  line_eq : s.token.line = number
  ne_rbrace : s.token.kind ≠ .rbrace

namespace Line

variable {number level : Nat} {last : TokenKind} {s : Segment} {segments : List Segment}
  {before : List Token} {first : Token}

/-- What may be behind a token of the kind `last` up to the end of the line `number`. -/
structure Behind (number : Nat) (last : TokenKind) (segments : List Segment) : Prop where
  isInner : ∀ s ∈ segments, s.IsInner number
  lbrace_last : .lbrace ∉ (last :: segments.map (·.token.kind)).dropLast

lemma Behind.nil (number : Nat) (last : TokenKind) : Behind number last [] where
  isInner := List.forall_mem_nil _
  lbrace_last := List.not_mem_nil

lemma Behind.cons (hlast : last ≠ .lbrace) (hinner : s.IsInner number)
    (h : Behind number s.token.kind segments) : Behind number last (s :: segments) where
  isInner := List.forall_mem_cons.mpr ⟨hinner, h.isInner⟩
  lbrace_last := List.not_mem_cons_of_ne_of_not_mem hlast.symm h.lbrace_last

lemma Behind.newline_notMem (h : Behind number last segments) :
    '\n' ∉ Segment.allChars segments := by
  intro hmem
  obtain ⟨s, hs, hmem⟩ := List.mem_flatMap.mp hmem
  obtain hgap | htext := List.mem_append.mp hmem
  · obtain heq | heq := (h.isInner s hs).gap_eq <;> rw [heq] at hgap <;>
      exact absurd hgap (by decide)
  · exact (h.isInner s hs).isTight.newline_notMem htext

/-- A line ends with a token. -/
lemma Behind.getLast?_ne (h : Behind number last segments) (front : List Char) {text : List Char}
    (htext : IsTight text) : (front ++ text ++ Segment.allChars segments).getLast? ≠ some ' ' := by
  obtain rfl | ⟨earlier, s, rfl⟩ := segments.eq_nil_or_concat'
  · rw [Segment.allChars, List.flatMap_nil, List.append_nil]
    exact htext.getLast?_append front
  · have hs := (h.isInner s (List.mem_append_right _ (List.mem_singleton_self s))).isTight
    rw [Segment.allChars, List.flatMap_append, List.flatMap_singleton, Segment.chars]
    simp only [← List.append_assoc]
    exact hs.getLast?_append _

/-- A line is right if its first token and those behind it are. -/
lemma Behind.fits (h : Behind number first.kind segments)
    (htight : IsTight first.text.toList) (hline : first.line = number)
    (hlevel : level + first.kind.closed = Token.openBraces before) :
    Fits before number ⟨level, ⟨[], first⟩ :: segments⟩ where
  newline_notMem := by
    have hspaces : '\n' ∉ List.replicate (4 * level) ' ' := fun hmem =>
      absurd (List.eq_of_mem_replicate hmem) (by decide)
    simpa [chars, Segment.allChars, Segment.chars, hspaces, htight.newline_notMem] using
      h.newline_notMem
  getLast?_ne := by
    have hlast := h.getLast?_ne (List.replicate (4 * level) ' ') htight
    rwa [List.append_assoc] at hlast
  line_eq := by
    refine List.forall_mem_cons.mpr ⟨hline, fun token htoken => ?_⟩
    obtain ⟨s, hs, rfl⟩ := List.mem_map.mp htoken
    exact (h.isInner s hs).line_eq
  level_add := ⟨_, rfl, rfl, htight.head, hlevel⟩
  gap_eq s hs := (h.isInner s hs).gap_eq
  lbrace_last token htoken hkind := by
    refine h.lbrace_last ?_
    have hmem := List.mem_map_of_mem (f := Token.kind) htoken
    rw [List.map_dropLast, hkind, tokens, List.map_cons, List.map_cons, List.map_map] at hmem
    exact hmem
  rbrace_first token htoken := by
    obtain ⟨s, hs, rfl⟩ := List.mem_map.mp htoken
    exact (h.isInner s hs).ne_rbrace

end Line

lemma Arranged.count_newline {before : List Token} {number : Nat} {lines : List Line}
    (h : Arranged before number lines) : (Line.allChars lines).count '\n' = lines.length := by
  induction h with
  | nil _ _ => rfl
  | @cons before number l later fits rest ih =>
    have hline : l.chars.count '\n' = 0 := List.count_eq_zero_of_not_mem fits.newline_notMem
    rw [Line.allChars, List.flatMap_cons, List.count_append, List.count_append, hline,
      List.length_cons, ← ih, Nat.add_comm]
    rfl

/-! ## Pieces along their lines -/

namespace Piece

variable {n level number : Nat} {kind last : TokenKind} {text : String} {pieces rest : List Piece}

/-- Pieces while `n` braces are open, at the beginning of a line or behind a word of it. -/
inductive Flows : Nat → Option TokenKind → List Piece → Prop
  /-- In the end all braces are closed. -/
  | finish : Flows 0 none []
  /-- A closing brace at the beginning of a line stands one level further out. -/
  | first {n level : Nat} {kind : TokenKind} {text : String} {rest : List Piece}
      (hlevel : level + kind.closed = n) (h : Flows (level + kind.opened) (some kind) rest) :
      Flows n none (.indent level :: .word kind text :: rest)
  /-- Neither does a word follow an opening brace, nor a closing brace a word. -/
  | word {n : Nat} {last kind : TokenKind} {text : String} {rest : List Piece}
      (hlast : last ≠ .lbrace) (hkind : kind ≠ .rbrace)
      (h : Flows (n + kind.opened) (some kind) rest) :
      Flows n (some last) (.word kind text :: rest)
  | space {n : Nat} {last kind : TokenKind} {text : String} {rest : List Piece}
      (hlast : last ≠ .lbrace) (hkind : kind ≠ .rbrace)
      (h : Flows (n + kind.opened) (some kind) rest) :
      Flows n (some last) (.space :: .word kind text :: rest)
  | newline {n : Nat} {last : TokenKind} {rest : List Piece} (h : Flows n none rest) :
      Flows n (some last) (.newline :: rest)

/-- The pieces may follow any word but an opening brace. -/
def Follows (n : Nat) (pieces : List Piece) : Prop :=
  ∀ last, last ≠ .lbrace → Flows n (some last) pieces

/-- The pieces begin with a word that is no closing brace, and may follow a word. -/
def Begins (n : Nat) (pieces : List Piece) : Prop :=
  ∃ kind text rest, pieces = .word kind text :: rest ∧ kind ≠ .rbrace ∧
    Flows (n + kind.opened) (some kind) rest

lemma Begins.follows (h : Begins n pieces) : Follows n pieces := by
  obtain ⟨kind, text, rest, rfl, hkind, hrest⟩ := h
  exact fun last hlast => .word hlast hkind hrest

lemma Begins.follows_space (h : Begins n pieces) : Follows n (.space :: pieces) := by
  obtain ⟨kind, text, rest, rfl, hkind, hrest⟩ := h
  exact fun last hlast => .space hlast hkind hrest

lemma Begins.flows_indent (h : Begins n pieces) : Flows n none (.indent n :: pieces) := by
  obtain ⟨kind, text, rest, rfl, hkind, hrest⟩ := h
  exact .first (kind.add_closed hkind n) hrest

/-- A word that is no brace. -/
lemma Follows.begins (h : Follows n rest) (hkind : kind ∉ [TokenKind.lbrace, .rbrace]) :
    Begins n (.word kind text :: rest) := by
  simp only [List.mem_cons, List.not_mem_nil, or_false, not_or] at hkind
  refine ⟨kind, text, rest, rfl, hkind.2, ?_⟩
  rw [kind.add_opened hkind.1]
  exact h kind hkind.1

lemma begins_lbrace (h : Flows (n + 1) none rest) :
    Begins n (.mark .lbrace :: .newline :: rest) :=
  ⟨.lbrace, _, _, rfl, by decide, .newline h⟩

/-- A closing brace at the beginning of a line. -/
lemma Follows.flows_rbrace (h : Follows n rest) :
    Flows (n + 1) none (.indent n :: .mark .rbrace :: rest) :=
  .first rfl (h .rbrace (by decide))

lemma follows_newline (h : Flows n none rest) : Follows n (.newline :: rest) :=
  fun _ _ => .newline h

/-- The end of a line behind a statement. -/
lemma follows_semi (h : Flows n none rest) : Follows n (.mark .semi :: .newline :: rest) :=
  ((follows_newline h).begins (by decide)).follows

/-- Parentheses do not matter. -/
lemma begins_enclosed (encloses : Bool)
    (hpieces : ∀ rest, Follows n rest → Begins n (pieces ++ rest)) (h : Follows n rest) :
    Begins n ((if encloses then parenthesized pieces else pieces) ++ rest) := by
  cases encloses with
  | false => exact hpieces rest h
  | true =>
    have hclosing : Follows n (.mark .rparen :: rest) := (h.begins (by decide)).follows
    have hinner : Begins n (.mark .lparen :: (pieces ++ .mark .rparen :: rest)) :=
      (hpieces _ hclosing).follows.begins (by decide)
    simpa only [if_true, parenthesized, List.cons_append, List.append_assoc, List.nil_append]
      using hinner

lemma begins_name (ident : Ident) (h : Follows n rest) : Begins n (ident.word :: rest) :=
  h.begins (by decide)

lemma begins_literal (value : Literal) (h : Follows n rest) : Begins n (value.word :: rest) := by
  cases value with
  | bool value line => cases value <;> exact h.begins (by decide)
  | _ => exact h.begins (by decide)

/-- A declared type behind a name. -/
lemma follows_typeWords (ty : Option Ident) (h : Follows n rest) :
    Follows n (Ident.typeWords ty ++ rest) := by
  cases ty with
  | none => exact h
  | some ty => exact (begins_name ty h).follows_space

/-- A mark between two spaces. -/
lemma Begins.follows_spaced (h : Begins n rest) (kind : TokenKind)
    (hkind : kind ∉ [TokenKind.lbrace, .rbrace]) :
    Follows n (.space :: .mark kind :: .space :: rest) :=
  (h.follows_space.begins hkind).follows_space

end Piece

open Piece

mutual

/-- An expression at the level of the open braces may follow a word. -/
lemma Expr.begins : ∀ (e : Expr) {n : Nat} (rest : List Piece), Follows n rest →
    Begins n (e.pieces n ++ rest)
  | .literal value, _, _, h => begins_literal value h
  | .name ident, _, _, h => begins_name ident h
  | .unary op operand _, n, rest, h => by
    have hoperand := begins_enclosed (UnaryOp.encloses operand) (operand.begins (n := n)) h
    rw [Expr.pieces, List.cons_append]
    exact hoperand.follows.begins (by cases op <;> decide)
  | .binary op left right _, n, rest, h => by
    have hright := begins_enclosed (op.enclosesRight right) (right.begins (n := n)) h
    have hsign := hright.follows_spaced op.token (by cases op <;> decide)
    have hleft := begins_enclosed (op.enclosesLeft left) (left.begins (n := n)) hsign
    simpa only [Expr.pieces, List.append_assoc, List.cons_append, List.nil_append] using hleft
  | .block body _, n, rest, h => by
    have hbody := Stmt.flowsAll body (.indent n :: .mark .rbrace :: rest) h.flows_rbrace
    simp only [Expr.pieces, List.append_assoc, List.cons_append, List.nil_append]
    exact begins_lbrace hbody

/-- A statement at the level of the open braces may stand at the beginning of a line. -/
lemma Stmt.flows : ∀ (s : Stmt) {n : Nat} (rest : List Piece), Flows n none rest →
    Flows n none (s.pieces n ++ rest)
  | .constDef name ty value _, n, rest, h | .varDef name ty value _, n, rest, h => by
    have hvalue := (value.begins _ (follows_semi h)).follows_spaced .assign (by decide)
    have hname := begins_name name (follows_typeWords ty hvalue)
    simp only [Stmt.pieces, List.append_assoc, List.cons_append, List.nil_append]
    exact (hname.follows_space.begins (by decide)).flows_indent
  | .varDecl name ty _, n, rest, h => by
    have hname := begins_name name (follows_typeWords ty (follows_semi h))
    simp only [Stmt.pieces, List.append_assoc, List.cons_append, List.nil_append]
    exact (hname.follows_space.begins (by decide)).flows_indent
  | .assign target value _, n, rest, h => by
    have hvalue := (value.begins _ (follows_semi h)).follows_spaced .assign (by decide)
    simp only [Stmt.pieces, List.append_assoc, List.cons_append, List.nil_append]
    exact (begins_name target hvalue).flows_indent
  | .print value _, n, rest, h => by
    have hvalue := (value.begins _ (follows_semi h)).follows_space
    simp only [Stmt.pieces, List.append_assoc, List.cons_append, List.nil_append]
    exact (hvalue.begins (by decide)).flows_indent
  | .ifElse test thenBlock elseBlock _, n, rest, h => by
    have helse := Stmt.flowsAll elseBlock (.indent n :: .mark .rbrace :: .newline :: rest)
      (follows_newline h).flows_rbrace
    have hbehind : Follows n ((if elseBlock.isEmpty then [] else
        [Piece.space, .mark .kwElse, .space, .mark .lbrace, .newline] ++
          Stmt.blockPieces (n + 1) elseBlock ++ [.indent n, .mark .rbrace]) ++
        (.newline :: rest)) := by
      split
      · exact follows_newline h
      · simp only [List.append_assoc, List.cons_append, List.nil_append]
        exact (begins_lbrace helse).follows_spaced .kwElse (by decide)
    have hthen := Stmt.flowsAll thenBlock _ hbehind.flows_rbrace
    have htest := (test.begins _ (begins_lbrace hthen).follows_space).follows_space
    simp only [Stmt.pieces, List.append_assoc, List.cons_append, List.nil_append] at htest ⊢
    exact (htest.begins (by decide)).flows_indent
  | .whileLoop test body _, n, rest, h => by
    have hbody := Stmt.flowsAll body (.indent n :: .mark .rbrace :: .newline :: rest)
      (follows_newline h).flows_rbrace
    have htest := (test.begins _ (begins_lbrace hbody).follows_space).follows_space
    simp only [Stmt.pieces, List.append_assoc, List.cons_append, List.nil_append]
    exact (htest.begins (by decide)).flows_indent
  | .breakLoop _, _, _, h | .continueLoop _, _, _, h =>
    ((follows_semi h).begins (by decide)).flows_indent
  | .expr value, n, rest, h => by
    have hvalue := value.begins _ (follows_semi h)
    simp only [Stmt.pieces, List.append_assoc, List.cons_append, List.nil_append]
    exact hvalue.flows_indent

lemma Stmt.flowsAll : ∀ (body : List Stmt) {n : Nat} (rest : List Piece), Flows n none rest →
    Flows n none (Stmt.blockPieces n body ++ rest)
  | [], _, _, h => h
  | first :: body, n, rest, h => by
    rw [Stmt.blockPieces, List.append_assoc]
    exact first.flows _ (Stmt.flowsAll body rest h)

end

/-! ## Reading off the lines -/

namespace Piece

variable {n number : Nat} {last? : Option TokenKind} {pieces rest : List Piece}
  {before : List Token}

/-- The tokens that some pieces stand for if they begin on the line. -/
def tokensFrom (line : Nat) : List Piece → List Token
  | [] => []
  | .word kind text :: rest => ⟨kind, text, line⟩ :: tokensFrom line rest
  | .newline :: rest => tokensFrom (line + 1) rest
  | .space :: rest | .indent _ :: rest => tokensFrom line rest

open Cursor in
/-- What is read from pieces are their words, each on its line. -/
lemma Scans.lexes : ∀ {pieces : List Piece}, Scans pieces → Fits pieces → ∀ line,
    ∃ last, Lexes ⟨chars pieces, line⟩ (tokensFrom line pieces) last
  | [], _, _, line => by
    have hend : readToken ⟨[], line⟩ = (.ok (.endOfInput line), ⟨[], line⟩) := rfl
    rw [chars_nil]
    exact ⟨line, .finish hend⟩
  | .word _ _ :: _, .inl hinfinity, hfits, _ => absurd hinfinity (fits_word.mp hfits).1
  | .word _ _ :: _, .inr ⟨hkind, hreads, hrest⟩, hfits, line => by
    obtain ⟨last, hlexes⟩ := lexes hrest (fits_word.mp hfits).2 line
    refine ⟨last, .token ?_ hkind hlexes⟩
    rw [chars_cons]
    exact hreads line
  | .space :: rest, hscans, hfits, line => by
    obtain ⟨last, hlexes⟩ := lexes (show Scans rest from hscans) hfits line
    refine ⟨last, hlexes.congr ?_⟩
    rw [chars_cons]
    exact (readToken_space (chars rest) line).symm
  | .newline :: rest, hscans, hfits, line => by
    obtain ⟨last, hlexes⟩ := lexes (show Scans rest from hscans) hfits (line + 1)
    refine ⟨last, hlexes.congr ?_⟩
    rw [chars_cons]
    exact (readToken_newline (chars rest) line).symm
  | .indent level :: rest, hscans, hfits, line => by
    obtain ⟨last, hlexes⟩ := lexes (show Scans rest from hscans) hfits line
    refine ⟨last, hlexes.congr ?_⟩
    rw [chars_cons, text, String.toList_ofList]
    exact (readToken_spaces (chars rest) line (4 * level)).symm

/-- The pieces are lines, and behind a word there is first the rest of its line. -/
def LaidOut (before : List Token) (number : Nat) : Option TokenKind → List Piece → Prop
  | none, pieces => ∃ lines, chars pieces = Line.allChars lines ∧
      tokensFrom number pieces = lines.flatMap Line.tokens ∧ Arranged before number lines
  | some last, pieces => ∃ segments lines,
      chars pieces = Segment.allChars segments ++ '\n' :: Line.allChars lines ∧
      tokensFrom number pieces = segments.map Segment.token ++ lines.flatMap Line.tokens ∧
      Line.Behind number last segments ∧
      Arranged (before ++ segments.map Segment.token) (number + 1) lines

/-- One more token at the end of the line so far. -/
lemma LaidOut.cons {last : TokenKind} {token : Token} {gap : List Char} (hlast : last ≠ .lbrace)
    (hinner : Segment.IsInner number ⟨gap, token⟩)
    (hchars : chars pieces = gap ++ token.text.toList ++ chars rest)
    (htokens : tokensFrom number pieces = token :: tokensFrom number rest)
    (h : LaidOut (before ++ [token]) number (some token.kind) rest) :
    LaidOut before number (some last) pieces := by
  obtain ⟨segments, lines, hrest, hbehind, hsegments, hlines⟩ := h
  refine ⟨⟨gap, token⟩ :: segments, lines, ?_, ?_, .cons hlast hinner hsegments, ?_⟩
  · rw [hchars, hrest, ← List.append_assoc]
    rfl
  · rw [htokens, hbehind]
    rfl
  · rwa [List.append_assoc] at hlines

/-- From pieces the lines are read off. -/
lemma Flows.laidOut (h : Flows n last? pieces) : ∀ {before : List Token} {number : Nat},
    Token.LeavesOpen before n → (∀ token ∈ tokensFrom number pieces, IsTight token.text.toList) →
    LaidOut before number last? pieces := by
  induction h with
  | finish => exact fun _ _ => ⟨[], chars_nil, rfl, .nil _ _⟩
  | @first n level kind text rest hlevel _ ih =>
    intro before number hopen htight
    obtain ⟨hfirst, hrest⟩ := List.forall_mem_cons.mp htight
    have hnext : Token.LeavesOpen (before ++ [⟨kind, text, number⟩]) (level + kind.opened) :=
      hopen.concat hlevel
    obtain ⟨segments, lines, hchars, htokens, hbehind, hlines⟩ := ih hnext hrest
    have hfits : Line.Fits before number ⟨level, ⟨[], kind, text, number⟩ :: segments⟩ :=
      hbehind.fits hfirst rfl (hlevel.trans hopen.openBraces_eq.symm)
    refine ⟨⟨level, ⟨[], kind, text, number⟩ :: segments⟩ :: lines, ?_, ?_, .cons hfits ?_⟩
    · rw [chars_cons, chars_cons, hchars]
      simp [Line.allChars, Line.chars, Segment.allChars, Segment.chars, Piece.text]
    · rw [tokensFrom, tokensFrom, htokens]
      rfl
    · rwa [List.append_assoc] at hlines
  | @word n last kind text rest hlast hkind _ ih =>
    intro before number hopen htight
    obtain ⟨hword, hrest⟩ := List.forall_mem_cons.mp htight
    exact .cons hlast ⟨.inl rfl, hword, rfl, hkind⟩ (chars_cons _ _) rfl
      (ih (hopen.concat (kind.add_closed hkind n)) hrest)
  | @space n last kind text rest hlast hkind _ ih =>
    intro before number hopen htight
    obtain ⟨hword, hrest⟩ := List.forall_mem_cons.mp htight
    exact .cons hlast ⟨.inr rfl, hword, rfl, hkind⟩ (by rw [chars_cons, chars_cons]; rfl) rfl
      (ih (hopen.concat (kind.add_closed hkind n)) hrest)
  | @newline n last rest _ ih =>
    intro before number hopen htight
    obtain ⟨lines, hchars, htokens, hlines⟩ := ih hopen htight
    refine ⟨[], lines, ?_, htokens, .nil _ _, by rwa [List.map_nil, List.append_nil]⟩
    rw [chars_cons, hchars]
    rfl

/-- In the end all braces are closed. -/
lemma Flows.settles (h : Flows n last? pieces) : ∀ {before : List Token} {number : Nat},
    Token.LeavesOpen before n → Token.Settles before (tokensFrom number pieces) := by
  induction h with
  | finish => exact fun hopen => .nil hopen
  | first hlevel _ ih => exact fun hopen => .cons hopen (ih (hopen.concat hlevel))
  | word _ hkind _ ih | space _ hkind _ ih =>
    exact fun hopen => .cons hopen (ih (hopen.concat (TokenKind.add_closed hkind _)))
  | newline _ ih => exact fun hopen => ih hopen

end Piece

namespace Source

variable {program : Program}

/-- The canonical form of a well-formed program is laid out after its braces.  It is made of lines,
each of them ended, none of them empty or with a space at its end.  A line is indented by four
spaces for each brace that is open in front of its first token, one less if this token is a closing
brace.  An opening brace is the last token of its line and a closing brace the first one, and the
braces are balanced. -/
theorem format_laid_out (h : program.WellFormed) : ∃ lines : List Line,
    program.format.toList = Line.allChars lines ∧
    tokens program.format =
      .ok (lines.flatMap Line.tokens ++ [.endOfInput (lines.length + 1)]) ∧
    (∀ earlier l later, lines = earlier ++ l :: later →
      l.Fits (earlier.flatMap Line.tokens) (earlier.length + 1)) ∧
    Token.Balanced (lines.flatMap Line.tokens) := by
  obtain ⟨hspelled, hfits⟩ := Program.wellFormed_iff.mp h
  have hflows : Flows 0 none program.pieces := by
    have hbody := Stmt.flowsAll program.body [] .finish
    rwa [List.append_nil] at hbody
  obtain ⟨last, hlexes⟩ := hspelled.scans.lexes ((Stmt.fits_blockPieces hspelled 0).mpr hfits) 1
  have hopen : Token.LeavesOpen [] 0 := rfl
  obtain ⟨lines, hchars, hlineTokens, harranged⟩ := hflows.laidOut hopen fun token htoken =>
    (hlexes.matches_of_mem token htoken).isTight
  have hsettles : Token.Settles [] (tokensFrom 1 program.pieces) := hflows.settles hopen
  rw [hlineTokens] at hlexes hsettles
  have hformat : program.format.toList = Line.allChars lines := hchars
  have htokens : tokens program.format =
      .ok (lines.flatMap Line.tokens ++ [.endOfInput last]) := tokens_eq_iff.mpr hlexes
  have hlast := last_eq_of_tokens htokens
  rw [hformat, harranged.count_newline, Nat.add_comm] at hlast
  rw [hlast] at htokens
  refine ⟨lines, hformat, htokens, ?_, hsettles.balanced⟩
  rintro earlier l later rfl
  simpa [Nat.add_comm] using harranged.fits

/-- A block that is an operand inside of a block, with a brace that is a character in it. -/
theorem format_laid_out_operand :
    (⟨[.ifElse (.name ⟨"c", 1⟩) [.assign ⟨"x", 1⟩ (.binary .add (.block [.print (.literal
        (.char '\x7b' 1)) 1] 1) (.literal (.char ' ' 1)) 1) 1] [] 1]⟩ : Program).WellFormed ∧
    ∃ lines : List Line,
      "if c \x7b\n    x = \x7b\n        print '\x7b';\n    \x7d + ' ';\n\x7d\n".toList =
        Line.allChars lines ∧
      tokens "if c \x7b\n    x = \x7b\n        print '\x7b';\n    \x7d + ' ';\n\x7d\n" =
        .ok (lines.flatMap Line.tokens ++ [.endOfInput (lines.length + 1)]) ∧
      (∀ earlier l later, lines = earlier ++ l :: later →
        l.Fits (earlier.flatMap Line.tokens) (earlier.length + 1)) ∧
      Token.Balanced (lines.flatMap Line.tokens) := by
  have htest : isWord "c" = true ∧ TokenKind.ofKeyword? "c" = none := by decide
  have htarget : isWord "x" = true ∧ TokenKind.ofKeyword? "x" = none := by decide
  have hw : (⟨[.ifElse (.name ⟨"c", 1⟩) [.assign ⟨"x", 1⟩ (.binary .add (.block [.print (.literal
      (.char '\x7b' 1)) 1] 1) (.literal (.char ' ' 1)) 1) 1] [] 1]⟩ : Program).WellFormed :=
    ⟨⟨trivial, htest, ⟨⟨htarget, trivial, ⟨trivial, ⟨trivial, trivial⟩, trivial⟩, trivial⟩,
      trivial⟩, trivial⟩, trivial⟩
  exact ⟨hw, format_laid_out hw⟩

end Source

end BlockLang
