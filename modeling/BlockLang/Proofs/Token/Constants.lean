import BlockLang.Proofs.Token.Matching

/-!
# What character constants stand for

Three functions have to agree on what stands between the quotes of a character constant: the one
that reads the constant from a text, the one that tells which character it stands for, and the one
that writes a character as a constant.

`CharConstant.StandsFor` says without them which character a body stands for.  Every constant that
is read either stands for just this character or has an unknown escape in it, and every character is
written as a constant that is read back whole, in front of anything, and stands for this character
(`Lexer.constants_agree`).
-/

namespace BlockLang

namespace CharConstant

variable {c e d : Char} {body digits : List Char}

/-! ## Bodies -/

/-- The escapes of one letter or mark, and what they stand for. -/
def escapes : List (Char × Char) :=
  [('n', '\n'), ('t', '\t'), ('r', '\r'), ('0', '\x00'), ('\\', '\\'), ('\'', '\'')]

/-- The number that is written in base sixteen, with letters in either case. -/
def ofHex (digits : List Char) : Nat :=
  digits.foldl (fun n d => 16 * n + "0123456789abcdef".toList.idxOf d.toLower) 0

/-- The character that a body stands for: itself, the one that an escape is for, or the one with a
code of one or two hexadecimal digits. -/
inductive StandsFor : List Char → Char → Prop
  | plain {c : Char} (hplain : c ∉ ['\\', '\'', '\n']) : StandsFor [c] c
  | escape {e c : Char} (he : (e, c) ∈ escapes) : StandsFor ['\\', e] c
  | code {digits : List Char} (hne : digits ≠ []) (hlength : digits.length ≤ 2)
      (hdigits : ∀ d ∈ digits, Cursor.isHexDigit d = true) :
      StandsFor ('\\' :: 'x' :: digits) (Char.ofNat (ofHex digits))

/-- What may stand behind the backslash of an escape. -/
def IsEscape (escape : List Char) : Prop :=
  (∃ e c, (e, c) ∈ escapes ∧ escape = [e]) ∨
    ∃ digits, escape = 'x' :: digits ∧ (digits.length = 1 ∨ digits.length = 2) ∧
      ∀ d ∈ digits, Cursor.isHexDigit d = true

/-- Of the bodies that are read, only unknown escapes stand for nothing. -/
lemma exists_standsFor_iff (h : IsBody body) :
    (∃ c, StandsFor body c) ↔ ∀ escape, body = '\\' :: escape → IsEscape escape := by
  constructor
  · rintro ⟨c, hc⟩ escape rfl
    generalize hbody : '\\' :: escape = body at hc
    cases hc with
    | plain hplain =>
      obtain ⟨rfl, -⟩ := List.cons.inj hbody
      exact absurd (List.mem_cons_self ..) hplain
    | escape he =>
      obtain ⟨-, rfl⟩ := List.cons.inj hbody
      exact .inl ⟨_, _, he, rfl⟩
    | code hne hlength hdigits =>
      obtain ⟨-, rfl⟩ := List.cons.inj hbody
      have hpos := List.length_pos_iff.mpr hne
      exact .inr ⟨_, rfl, by omega, hdigits⟩
  · intro hknown
    cases h with
    | plain hplain => exact ⟨_, .plain hplain⟩
    | @escape e he =>
      obtain ⟨e', c, hmem, heq⟩ | ⟨digits, heq, hlength, -⟩ := hknown [e] rfl
      · obtain rfl := List.singleton_inj.mp heq
        exact ⟨c, .escape hmem⟩
      · obtain ⟨-, rfl⟩ := List.cons.inj heq
        simp at hlength
    | @hex digits _ hdigits =>
      obtain ⟨e, c, hmem, heq⟩ | ⟨digits', heq, hlength, -⟩ := hknown ('x' :: digits) rfl
      · obtain ⟨rfl, -⟩ := List.cons.inj heq
        simp [escapes] at hmem
      · obtain ⟨-, rfl⟩ := List.cons.inj heq
        refine ⟨_, .code ?_ (by omega) hdigits⟩
        rintro rfl
        simp at hlength

/-! ## The character of a body -/

lemma ofEscape?_singleton : ofEscape? [e] = some c ↔ (e, c) ∈ escapes := by
  constructor
  · intro h
    unfold ofEscape? at h
    split at h
    all_goals simp_all [escapes]
    all_goals exact h.symm
  · intro h
    simp only [escapes, List.mem_cons, Prod.mk.injEq, List.not_mem_nil, or_false] at h
    rcases h with ⟨rfl, rfl⟩ | ⟨rfl, rfl⟩ | ⟨rfl, rfl⟩ | ⟨rfl, rfl⟩ | ⟨rfl, rfl⟩ | ⟨rfl, rfl⟩
    all_goals rfl

/-- The value of a hexadecimal digit is its place among them. -/
lemma hexDigit?_of_isHexDigit (h : Cursor.isHexDigit d = true) :
    hexDigit? d = some ("0123456789abcdef".toList.idxOf d.toLower) := by
  have hascii : d.toNat < 0x80 := by
    simp only [Cursor.isHexDigit, Bool.or_eq_true, Bool.and_eq_true, decide_eq_true_eq,
      isDigit_iff_toNat, Char.le_def, UInt32.le_iff_toNat_le] at h
    have hletters : 'f'.val.toNat = 102 ∧ 'F'.val.toNat = 70 := by decide
    have htoNat : d.toNat = d.val.toNat := rfl
    omega
  have hall : ∀ n < 0x80, Cursor.isHexDigit (Char.ofNat n) = true → hexDigit? (Char.ofNat n) =
      some ("0123456789abcdef".toList.idxOf (Char.ofNat n).toLower) := by
    decide
  have hd := hall d.toNat hascii
  rw [Char.ofNat_toNat] at hd
  exact hd h

lemma ofEscape?_code (hne : digits ≠ []) (hlength : digits.length ≤ 2)
    (hdigits : ∀ d ∈ digits, Cursor.isHexDigit d = true) :
    ofEscape? ('x' :: digits) = some (Char.ofNat (ofHex digits)) := by
  match digits, hne, hlength with
  | [a], _, _ =>
    have ha := hexDigit?_of_isHexDigit (hdigits a (List.mem_singleton_self a))
    simp [ofEscape?, ha, ofHex]
  | [a, b], _, _ =>
    have ha := hexDigit?_of_isHexDigit (hdigits a (by simp))
    have hb := hexDigit?_of_isHexDigit (hdigits b (by simp))
    simp [ofEscape?, ha, hb, ofHex]

/-- The character of a body that is read is the one that it stands for. -/
lemma decode?_eq_some_iff (h : IsBody body) : decode? body = some c ↔ StandsFor body c := by
  constructor
  · intro hc
    cases h with
    | plain hplain =>
      obtain rfl := Option.some.inj ((decode?_plain hplain).symm.trans hc)
      exact .plain hplain
    | escape he => exact .escape (ofEscape?_singleton.mp hc)
    | @hex digits hlength hdigits =>
      by_cases hne : digits = []
      · subst hne
        cases hc
      · have hcode : some (Char.ofNat (ofHex digits)) = some c :=
          (ofEscape?_code hne hlength hdigits).symm.trans hc
        obtain rfl := Option.some.inj hcode
        exact .code hne hlength hdigits
  · intro hc
    cases hc with
    | plain hplain => exact decode?_plain hplain
    | escape he => exact ofEscape?_singleton.mpr he
    | code hne hlength hdigits => exact ofEscape?_code hne hlength hdigits

/-- Only unknown escapes have no character. -/
lemma decode?_eq_none_iff (h : IsBody body) :
    decode? body = none ↔ ∃ escape, body = '\\' :: escape ∧ ¬ IsEscape escape := by
  have hsome : (∃ c, decode? body = some c) ↔ ∃ c, StandsFor body c :=
    exists_congr fun _ => decode?_eq_some_iff h
  rw [Option.eq_none_iff_forall_ne_some, ← not_exists, hsome, exists_standsFor_iff h]
  push Not
  exact Iff.rfl

end CharConstant

/-! ## Constants in a text -/

namespace Lexer

/-- A constant that is read has a body, whatever is in front of it and behind it. -/
lemma exists_isBody {lexer : Lexer} {token : Token} (h : lexer.nextToken.1 = .ok token)
    (hkind : token.kind = .char) : ∃ body, CharConstant.IsBody body ∧
      token.text = String.ofList ('\'' :: body ++ ['\'']) := by
  have hread : lexer.cursor.readToken = (.ok token, lexer.cursor.readToken.2) := Prod.ext h rfl
  obtain ⟨line, rfl⟩ | hmatches := Cursor.matches_of_readToken hread
  · cases hkind
  · rw [hkind] at hmatches
    generalize hchars : token.text.toList = chars at hmatches
    cases hmatches with
    | fixed hspelling => cases hspelling
    | @char body hbody =>
      refine ⟨body, hbody, ?_⟩
      rw [← hchars, String.ofList_toList]

/-- What reads, what decodes and what writes character constants agree.  A constant that is read
anywhere stands for the character that its body asks for, and it stands for none just if it is an
escape that is not known.  A character is written as a constant that is read whole, whatever is
behind it, and stands for this character. -/
theorem constants_agree :
    (∀ (lexer : Lexer) (token : Token), lexer.nextToken.1 = .ok token → token.kind = .char →
      ∃ body, token.text = String.ofList ('\'' :: body ++ ['\'']) ∧
        (∀ c, CharConstant.unquote? token.text = some c ↔ CharConstant.StandsFor body c) ∧
        (CharConstant.unquote? token.text = none ↔
          ∃ escape, body = '\\' :: escape ∧ ¬ CharConstant.IsEscape escape)) ∧
    ∀ (c : Char) (rest : String),
      (Lexer.ofString (CharConstant.quote c ++ rest)).nextToken =
        (.ok ⟨.char, CharConstant.quote c, 1⟩,
          ⟨(CharConstant.quote c ++ rest).toList, ⟨rest.toList, 1⟩, false⟩) ∧
      CharConstant.unquote? (CharConstant.quote c) = some c := by
  refine ⟨fun lexer token hread hkind => ?_, fun c rest => ⟨?_, CharConstant.unquote?_quote c⟩⟩
  · obtain ⟨body, hbody, htext⟩ := exists_isBody hread hkind
    refine ⟨body, htext, fun c => ?_, ?_⟩
    · rw [htext, CharConstant.unquote?_ofList]
      exact CharConstant.decode?_eq_some_iff hbody
    · rw [htext, CharConstant.unquote?_ofList]
      exact CharConstant.decode?_eq_none_iff hbody
  · have hstart : (Lexer.ofString (CharConstant.quote c ++ rest)).cursor =
        ⟨(CharConstant.quote c).toList ++ rest.toList, 1⟩ := by
      rw [← String.toList_append]
      rfl
    rw [nextToken, hstart, reads_char c rest.toList 1]
    rfl

/-- An escape that is not known, and a quote that is written in front of more quotes. -/
theorem constants_agree_quotes :
    (Lexer.ofString "'\\q';").nextToken.1 = .ok ⟨.char, "'\\q'", 1⟩ ∧
    (∃ body, "'\\q'" = String.ofList ('\'' :: body ++ ['\'']) ∧
      (∀ c, CharConstant.unquote? "'\\q'" = some c ↔ CharConstant.StandsFor body c) ∧
      (CharConstant.unquote? "'\\q'" = none ↔
        ∃ escape, body = '\\' :: escape ∧ ¬ CharConstant.IsEscape escape)) ∧
    (Lexer.ofString ("'\\''" ++ "''")).nextToken =
      (.ok ⟨.char, "'\\''", 1⟩, ⟨("'\\''" ++ "''").toList, ⟨"''".toList, 1⟩, false⟩) ∧
    CharConstant.unquote? "'\\''" = some '\'' := by
  have hread : (Lexer.ofString "'\\q';").nextToken.1 = .ok ⟨.char, "'\\q'", 1⟩ := by cbv
  have hquote : CharConstant.quote '\'' = "'\\''" := by decide
  have hquoted := constants_agree.2 '\'' "''"
  rw [hquote] at hquoted
  exact ⟨hread, constants_agree.1 _ _ hread rfl, hquoted⟩

end Lexer

end BlockLang
