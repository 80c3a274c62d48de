import BlockLang.Proofs.Layout.Words
import Mathlib.Data.List.TakeWhile
import Mathlib.Tactic.Common

/-!
# The texts of tokens

`TokenKind.Matches kind text` says, without a word about reading, which texts are tokens of a kind.
What is read from an input matches its kind (`Cursor.matches_of_readHere`), a text that matches a
kind is read as a token of that kind (`TokenKind.Matches.reads`) and of no other one
(`TokenKind.Matches.kind_unique`), and no text that matches any kind is a longer beginning of the
input than the one that is read (`TokenKind.Matches.length_le`).
-/

namespace BlockLang

variable {token : Token} {kind kind' : TokenKind} {text : List Char} {line : Nat}
  {input : List Char} {next : Cursor}

namespace TokenKind

/-- The texts that are tokens of a kind: a fixed spelling, a word that is no keyword, digits, digits
with a point behind them and perhaps more digits, and a character between quotes. -/
inductive Matches : TokenKind → List Char → Prop
  | fixed {kind : TokenKind} {spelling : String} (h : kind.spelling? = some spelling) :
      Matches kind spelling.toList
  | name {text : String} (hword : isWord text = true) (hkeyword : ofKeyword? text = none) :
      Matches .name text.toList
  | integer {digits : List Char} (hne : digits ≠ []) (hdigits : ∀ c ∈ digits, c.isDigit = true) :
      Matches .integer digits
  | float {whole fraction : List Char} (hne : whole ≠ []) (hwhole : ∀ c ∈ whole, c.isDigit = true)
      (hfraction : ∀ c ∈ fraction, c.isDigit = true) : Matches .float (whole ++ '.' :: fraction)
  | char {body : List Char} (hbody : CharConstant.IsBody body) :
      Matches .char ('\'' :: body ++ ['\''])

/-- A fixed spelling is a keyword or an operator of one or of two characters. -/
lemma of_spelling? {spelling : String} (h : kind.spelling? = some spelling) :
    (kind ∈ keywords ∧ isWord spelling = true ∧ ofKeyword? spelling = some kind) ∨
      (∃ a b, spelling = String.ofList [a, b] ∧ ofPair? a b = some kind) ∨
      ∃ c, spelling = String.ofList [c] ∧ ofChar? c = some kind := by
  cases kind <;> cases h <;> first
    | exact .inl (by decide)
    | exact .inr (.inl ⟨_, _, rfl, rfl⟩)
    | exact .inr (.inr ⟨_, rfl, rfl⟩)

namespace Matches

lemma ne_endOfInput (h : kind.Matches text) : kind ≠ .endOfInput := by
  rintro rfl
  obtain ⟨⟨⟩⟩ := h

/-- A token with a fixed spelling is spelled like this. -/
lemma eq_spelling {spelling : String} (h : kind.Matches text)
    (hkind : kind.spelling? = some spelling) : text = spelling.toList := by
  cases h with
  | fixed hkind' =>
    obtain rfl := Option.some.inj (hkind.symm.trans hkind')
    rfl
  | _ => cases hkind

lemma isPointed {text : String} (h : Matches .float text.toList) : Decimal.IsPointed text := by
  generalize hchars : text.toList = chars at h
  cases h with
  | fixed h => cases h
  | float hne hwhole hfraction =>
    exact ⟨_, _, by rw [← hchars, String.ofList_toList], hne, hwhole, hfraction⟩

lemma isName {text : String} (h : Matches .name text.toList) :
    isWord text = true ∧ ofKeyword? text = none := by
  generalize hchars : text.toList = chars at h
  cases h with
  | fixed h => cases h
  | name hword hkeyword =>
    obtain rfl := String.toList_inj.mp hchars
    exact ⟨hword, hkeyword⟩

end Matches

end TokenKind

namespace Cursor

open TokenKind

/-! ## What is read matches its kind -/

lemma matches_readNumber {c : Char} {rest : List Char} (hc : c.isDigit = true) :
    (readNumber line (c :: rest)).1.kind.Matches (readNumber line (c :: rest)).1.text.toList := by
  have hne : (c :: rest).takeWhile Char.isDigit ≠ [] := by
    rw [List.takeWhile_cons_of_pos hc]
    exact List.cons_ne_nil _ _
  unfold readNumber
  split
  · rw [String.toList_ofList]
    exact .float hne (fun d hd => List.mem_takeWhile_imp hd) fun d hd => List.mem_takeWhile_imp hd
  · rw [String.toList_ofList]
    exact .integer hne fun d hd => List.mem_takeWhile_imp hd

lemma isWord_takeWhile {c : Char} {rest : List Char} (hc : isWordStart c = true) :
    isWord (String.ofList ((c :: rest).takeWhile isWordChar)) = true := by
  rw [isWord, String.toList_ofList, List.takeWhile_cons_of_pos (isWordChar_of_isWordStart hc)]
  simp only [hc, Bool.true_and, List.all_eq_true]
  exact fun d hd => List.mem_takeWhile_imp hd

lemma matches_readWord {c : Char} {rest : List Char} (hc : isWordStart c = true) :
    (readWord line (c :: rest)).1.kind.Matches (readWord line (c :: rest)).1.text.toList := by
  generalize htext : String.ofList ((c :: rest).takeWhile isWordChar) = text
  have hread : (readWord line (c :: rest)).1 = ⟨(ofKeyword? text).getD .name, text, line⟩ := by
    rw [readWord, htext]
  rw [hread]
  cases hkeyword : ofKeyword? text with
  | none => exact .name (htext ▸ isWord_takeWhile hc) hkeyword
  | some kind => exact .fixed (spelling?_of_ofKeyword? hkeyword)

lemma matches_of_closeQuote {body : List Char} (hbody : CharConstant.IsBody body)
    (h : closeQuote line body input = (.ok token, next)) :
    token.kind.Matches token.text.toList := by
  unfold closeQuote at h
  split at h
  · cases h
    rw [String.toList_ofList]
    exact .char hbody
  · cases h

lemma matches_of_readQuoted (h : readQuoted line input = (.ok token, next)) :
    token.kind.Matches token.text.toList := by
  unfold readQuoted at h
  split at h
  case h_1 rest =>
    refine matches_of_closeQuote (.hex ?_ fun d hd => List.mem_takeWhile_imp hd) h
    exact (List.takeWhile_prefix _).length_le.trans (List.length_take_le 2 rest)
  case h_3 newline c =>
    exact matches_of_closeQuote (.escape (by simp_all)) h
  case h_7 c rest _ _ hescape hbackslash _ _ =>
    have hplain : c ≠ '\\' := by
      rintro rfl
      cases rest with
      | nil => exact hbackslash rfl rfl
      | cons e tail => exact hescape e tail rfl rfl
    exact matches_of_closeQuote (.plain (by simp_all)) h
  all_goals cases h

lemma matches_of_readFrom {c : Char} {rest : List Char}
    (h : readFrom line c rest = (.ok token, next)) : token.kind.Matches token.text.toList := by
  unfold readFrom at h
  split at h
  · next digit =>
    cases h
    exact matches_readNumber digit
  split at h
  · next start =>
    cases h
    exact matches_readWord start
  split at h
  · exact matches_of_readQuoted h
  split at h
  · next hkind =>
    cases h
    exact .fixed (spelling?_of_ofChar? hkind)
  · cases h

/-- The end of the input is given at the end only. -/
lemma matches_of_readHere (h : readHere line input = (.ok token, next)) :
    input = [] ∧ token = .endOfInput line ∨ token.kind.Matches token.text.toList := by
  unfold readHere at h
  split at h
  · cases h
    exact .inl ⟨rfl, rfl⟩
  · split at h
    · next hkind =>
      cases h
      exact .inr (.fixed (spelling?_of_ofPair? hkind))
    · exact .inr (matches_of_readFrom h)
  · exact .inr (matches_of_readFrom h)

lemma matches_of_readToken {cursor : Cursor} (h : cursor.readToken = (.ok token, next)) :
    (∃ line, token = .endOfInput line) ∨ token.kind.Matches token.text.toList := by
  unfold readToken at h
  split at h
  · cases h
  · exact (matches_of_readHere h).imp_left fun hend => ⟨_, hend.2⟩

/-- A text that is read as one token matches the kind of this token. -/
lemma matches_of_reads {text : String} {rest : List Char} (h : Reads kind text rest)
    (hkind : kind ≠ .endOfInput) : kind.Matches text.toList := by
  obtain ⟨_, hend⟩ | hmatches := matches_of_readToken (h 1)
  · exact absurd (congrArg Token.kind hend) hkind
  · exact hmatches

end Cursor

namespace TokenKind.Matches

open Cursor

/-! ## What matches is read -/

/-- A text that matches a kind is read as a token of this kind. -/
lemma reads {text : String} {rest : List Char} (h : kind.Matches text.toList) (apart : Apart rest) :
    Reads kind text rest := by
  generalize hchars : text.toList = chars at h
  obtain rfl : text = String.ofList chars := by rw [← hchars, String.ofList_toList]
  cases h with
  | @fixed _ spelling hkind =>
    rw [String.ofList_toList]
    obtain rfl : kind.spelling?.getD "" = spelling := by rw [hkind]; rfl
    by_cases hkeyword : kind ∈ keywords
    · exact reads_keyword hkeyword apart
    · refine reads_mark ?_ apart
      cases kind <;> first | decide | exact absurd (by decide) hkeyword | cases hkind
  | name hword hkeyword =>
    rw [String.ofList_toList]
    exact reads_name hword hkeyword apart
  | integer hne hdigits => exact reads_integer hne hdigits apart
  | float hne hwhole hfraction => exact reads_float hne hwhole hfraction apart
  | char hbody => exact reads_constant hbody rest

/-- The kind of a token is determined by its text. -/
lemma kind_unique (h : kind.Matches text) (h' : kind'.Matches text) : kind = kind' := by
  have hread : ∀ {kind : TokenKind}, kind.Matches text → Reads kind (String.ofList text) [] :=
    fun h => reads (by rwa [String.toList_ofList]) .nil
  have hsame := (hread h 1).symm.trans (hread h' 1)
  exact congrArg Token.kind (Except.ok.inj (Prod.mk.inj hsame).1)

/-! ## The longest match is read -/

/-- A run of characters is at least as long as any beginning of the input that is one. -/
lemma length_le_takeWhile {p : Char → Bool} {run : List Char} (h : ∀ c ∈ run, p c = true)
    (rest : List Char) :
    run.length ≤ ((run ++ rest).takeWhile p).length := by
  rw [List.takeWhile_append_of_pos h, List.length_append]
  exact Nat.le_add_right _ _

lemma length_le_of_isWord {text : String} {rest : List Char} (hword : isWord text = true)
    (hread : readHere line (text.toList ++ rest) = (.ok token, next)) :
    text.toList.length ≤ token.text.toList.length := by
  rw [isWord] at hword
  split at hword
  · cases hword
  · next first tail heq =>
    simp only [Bool.and_eq_true, List.all_eq_true] at hword
    obtain ⟨hfirst, htail⟩ := hword
    have hchar := isWordChar_of_isWordStart hfirst
    rw [heq, List.cons_append, readHere_of_isWordChar hchar, readFrom,
      if_neg (by simp [isDigit_of_isWordStart hfirst]), if_pos hfirst, readWord] at hread
    cases hread
    rw [heq, String.toList_ofList, ← List.cons_append]
    exact length_le_takeWhile (List.forall_mem_cons.mpr ⟨hchar, htail⟩) rest

lemma eq_readNumber {digits rest : List Char} (hne : digits ≠ [])
    (hdigits : ∀ c ∈ digits, c.isDigit = true)
    (hread : readHere line (digits ++ rest) = (.ok token, next)) :
    token = (readNumber line (digits ++ rest)).1 := by
  obtain ⟨first, tail, rfl⟩ := List.exists_cons_of_ne_nil hne
  have hfirst : first.isDigit = true := hdigits first (List.mem_cons_self ..)
  rw [List.cons_append, readHere_of_isWordChar (isWordChar_of_isDigit hfirst), readFrom,
    if_pos hfirst] at hread
  cases hread
  rfl

/-- A text that is read from somewhere is not empty. -/
lemma length_pos_of_readHere (hinput : input ≠ [])
    (hread : readHere line input = (.ok token, next)) : 0 < token.text.toList.length := by
  obtain ⟨rfl, -⟩ | hmatches := matches_of_readHere hread
  · exact absurd rfl hinput
  · have hshorter := readHere_length_lt hread hmatches.ne_endOfInput
    have hparts := congrArg List.length (readHere_text_append hread)
    rw [List.length_append] at hparts
    omega

/-- No beginning of an input that is the text of a token is longer than the token that is read. -/
lemma length_le {longer : List Char} (h : kind.Matches longer) (hbegins : longer <+: input)
    (hread : readHere line input = (.ok token, next)) :
    longer.length ≤ token.text.toList.length := by
  obtain ⟨rest, rfl⟩ := hbegins
  cases h with
  | fixed hkind =>
    obtain ⟨_, hword, _⟩ | ⟨a, b, rfl, hpair⟩ | ⟨c, rfl, _⟩ := of_spelling? hkind
    · exact length_le_of_isWord hword hread
    · rw [String.toList_ofList, List.cons_append, List.cons_append, readHere, hpair] at hread
      cases hread
      exact le_rfl
    · rw [String.toList_ofList] at hread ⊢
      exact length_pos_of_readHere (List.cons_ne_nil _ _) hread
  | name hword _ => exact length_le_of_isWord hword hread
  | integer hne hdigits =>
    have hdigits' := length_le_takeWhile hdigits rest
    rw [eq_readNumber hne hdigits hread, readNumber]
    split
    · rw [String.toList_ofList, List.length_append]
      exact Nat.le_add_right_of_le hdigits'
    · rwa [String.toList_ofList]
  | @float whole fraction hne hwhole hfraction =>
    rw [List.append_assoc, List.cons_append] at hread
    obtain ⟨htake, hdrop⟩ := takeWhile_digits_point hwhole (fraction ++ rest)
    have hfraction' := length_le_takeWhile hfraction rest
    rw [eq_readNumber hne hwhole hread, readNumber, htake, hdrop]
    simpa using hfraction'
  | @char body hbody =>
    have hquoted := CharConstant.readQuoted_of_isBody hbody rest line
    rw [List.cons_append, List.cons_append, List.append_assoc, readHere_cons (by decide)] at hread
    obtain ⟨⟨⟩⟩ := (Prod.mk.inj (hread.symm.trans hquoted)).1
    rw [String.toList_ofList]

end TokenKind.Matches

end BlockLang
