import BlockLang.Program.Layout
import BlockLang.Proofs.Decimal.Pointed
import BlockLang.Proofs.Layout.WellFormed
import BlockLang.Text.CharConstant
import BlockLang.Token.Lemmas

/-!
# Reading back single words

`Reads kind text rest` says that the text, in front of `rest`, is read as one token of the kind.
For most words it is enough that `rest` begins with something that ends any word (`Apart`): a
space, the end of a line, a semicolon or a closing parenthesis.  Some marks are read as they are
in front of anything (`reads_opening`).
-/

namespace BlockLang

variable {c : Char} {rest : List Char} {line : Nat} {kind : TokenKind}

/-- An input that begins with something that ends any word. -/
inductive Apart : List Char → Prop
  | nil : Apart []
  | cons {c : Char} (rest : List Char) (ends : c ∈ [' ', '\n', ';', ')']) : Apart (c :: rest)

/-- In front of `rest` the text is one token of the kind. -/
def Reads (kind : TokenKind) (text : String) (rest : List Char) : Prop :=
  ∀ line, Cursor.readToken ⟨text.toList ++ rest, line⟩ = (.ok ⟨kind, text, line⟩, ⟨rest, line⟩)

/-! ## Marks -/

/-- Operators and brackets. -/
lemma reads_mark (hkind : kind ∈ [TokenKind.plus, .minus, .times, .divide, .lt, .le, .gt, .ge, .eq,
      .ne, .andAnd, .orOr, .bang, .assign, .semi, .lparen, .rparen, .lbrace, .rbrace])
    (apart : Apart rest) : Reads kind (kind.spelling?.getD "") rest := by
  intro line
  cases apart with
  | nil => cases kind <;> first | exact absurd hkind (by decide) | rfl
  | cons rest ends =>
    simp only [List.mem_cons, List.not_mem_nil, or_false] at ends
    rcases ends with rfl | rfl | rfl | rfl <;>
      cases kind <;> first | exact absurd hkind (by decide) | rfl

/-- Marks that are not the beginning of a longer one. -/
lemma reads_opening (hkind : kind ∈ [TokenKind.plus, .minus, .semi, .lparen, .rparen, .lbrace])
    (rest : List Char) : Reads kind (kind.spelling?.getD "") rest := by
  intro line
  cases kind <;> first | exact absurd hkind (by decide) | cases rest <;> rfl

lemma reads_bang (h : ∀ tail, rest ≠ '=' :: tail) : Reads .bang "!" rest := by
  intro line
  cases rest with
  | nil => rfl
  | cons c tail =>
    have hpair : TokenKind.ofPair? '!' c = none := by
      unfold TokenKind.ofPair?
      split <;> simp_all
    have hhere :
        Cursor.readHere line ('!' :: c :: tail) = Cursor.readFrom line '!' (c :: tail) := by
      rw [Cursor.readHere, hpair]
    exact hhere

/-! ## Words that begin with a letter, a digit or a quote -/

/-- A character that begins no longer operator is read for itself. -/
lemma readHere_cons (hother : c ∉ ['=', '!', '<', '>', '&', '|']) :
    Cursor.readHere line (c :: rest) = Cursor.readFrom line c rest := by
  simp only [List.mem_cons, List.not_mem_nil, or_false, not_or] at hother
  cases rest with
  | nil => rfl
  | cons b tail =>
    have hpair : TokenKind.ofPair? c b = none := by
      unfold TokenKind.ofPair?
      split <;> simp_all
    rw [Cursor.readHere, hpair]

lemma readToken_cons (hblank : Text.isBlank c = false)
    (hother : c ∉ ['/', '=', '!', '<', '>', '&', '|']) :
    Cursor.readToken ⟨c :: rest, line⟩ = Cursor.readFrom line c rest := by
  rw [List.mem_cons, not_or] at hother
  have hskip : Cursor.skip .blanks line (c :: rest) = (none, ⟨c :: rest, line⟩) := by
    unfold Cursor.skip
    split <;> simp_all
  rw [Cursor.readToken, Cursor.skipTrivia, hskip]
  exact readHere_cons hother.2

lemma isUpper_iff_toNat : c.isUpper = true ↔ 65 ≤ c.toNat ∧ c.toNat ≤ 90 := by
  have hunfold : c.isUpper = decide ('A'.val ≤ c.val ∧ c.val ≤ 'Z'.val) := rfl
  rw [hunfold, decide_eq_true_eq, UInt32.le_iff_toNat_le, UInt32.le_iff_toNat_le]
  rfl

lemma isLower_iff_toNat : c.isLower = true ↔ 97 ≤ c.toNat ∧ c.toNat ≤ 122 := by
  have hunfold : c.isLower = (decide ('a'.val ≤ c.val) && decide (c.val ≤ 'z'.val)) := rfl
  rw [hunfold, Bool.and_eq_true, decide_eq_true_eq, decide_eq_true_eq, UInt32.le_iff_toNat_le,
    UInt32.le_iff_toNat_le]
  rfl

lemma isAlpha_iff_toNat :
    c.isAlpha = true ↔ 65 ≤ c.toNat ∧ c.toNat ≤ 90 ∨ 97 ≤ c.toNat ∧ c.toNat ≤ 122 := by
  have hunfold : c.isAlpha = (c.isUpper || c.isLower) := rfl
  rw [hunfold, Bool.or_eq_true, isUpper_iff_toNat, isLower_iff_toNat]

lemma isDigit_iff_toNat : c.isDigit = true ↔ 48 ≤ c.toNat ∧ c.toNat ≤ 57 :=
  Char.isDigit_iff_toNat

lemma toNat_of_isWordChar (h : Cursor.isWordChar c = true) :
    (48 ≤ c.toNat ∧ c.toNat ≤ 122) ∨ c = '_' := by
  rw [Cursor.isWordChar, Char.isAlphanum, Bool.or_eq_true, Bool.or_eq_true, decide_eq_true_eq,
    isAlpha_iff_toNat, isDigit_iff_toNat] at h
  exact h.imp_left fun hrange => by omega

lemma isDigit_of_isWordStart (h : Cursor.isWordStart c = true) : c.isDigit = false := by
  rw [← Bool.not_eq_true, isDigit_iff_toNat]
  rw [Cursor.isWordStart, Bool.or_eq_true, decide_eq_true_eq, isAlpha_iff_toNat] at h
  obtain hrange | rfl := h
  · omega
  · decide

lemma notMem_of_isWordChar (h : Cursor.isWordChar c = true) :
    c ∉ ['/', '=', '!', '<', '>', '&', '|'] := by
  intro hmem
  have hnone : ['/', '=', '!', '<', '>', '&', '|'].any Cursor.isWordChar = false := by decide
  exact List.any_eq_false.mp hnone c hmem h

/-- Characters of words stand neither for blanks nor for marks. -/
lemma readToken_of_isWordChar (h : Cursor.isWordChar c = true) :
    Cursor.readToken ⟨c :: rest, line⟩ = Cursor.readFrom line c rest := by
  refine readToken_cons ?_ (notMem_of_isWordChar h)
  obtain hrange | rfl := toNat_of_isWordChar h
  · have hspace : c ≠ ' ' := by
      rintro rfl
      exact absurd h (by decide)
    have hascii : c.toNat < 0x80 := by omega
    have htab : ¬ (0x9 ≤ c.toNat ∧ c.toNat ≤ 0xd) := by omega
    simp [Text.isBlank, hascii, hspace]
    omega
  · decide

lemma readHere_of_isWordChar (h : Cursor.isWordChar c = true) :
    Cursor.readHere line (c :: rest) = Cursor.readFrom line c rest :=
  readHere_cons (List.not_mem_of_not_mem_cons (notMem_of_isWordChar h))

lemma isWordChar_of_isDigit (h : c.isDigit = true) : Cursor.isWordChar c = true := by
  simp [Cursor.isWordChar, Char.isAlphanum, h]

/-- A run of characters ends where something follows that is not of its kind. -/
lemma takeWhile_append_apart {p : Char → Bool} {text : List Char} (htext : ∀ c ∈ text, p c = true)
    (hp : [' ', '\n', ';', ')'].any p = false) (apart : Apart rest) :
    (text ++ rest).takeWhile p = text ∧ (text ++ rest).dropWhile p = rest := by
  rw [List.takeWhile_append_of_pos htext, List.dropWhile_append_of_pos htext]
  cases apart with
  | nil => simp
  | cons tail ends => simp [List.any_eq_false.mp hp _ ends]

/-- A word is a keyword or a name. -/
lemma reads_word {text : String} (hword : isWord text = true) (apart : Apart rest) :
    Reads ((TokenKind.ofKeyword? text).getD .name) text rest := by
  intro line
  rw [isWord] at hword
  split at hword
  · cases hword
  · next first tail heq =>
    simp only [Bool.and_eq_true, List.all_eq_true] at hword
    obtain ⟨hfirst, htail⟩ := hword
    have hchar := Cursor.isWordChar_of_isWordStart hfirst
    obtain ⟨htake, hdrop⟩ := takeWhile_append_apart
      (List.forall_mem_cons.mpr ⟨hchar, htail⟩) (by decide) apart
    obtain rfl : String.ofList (first :: tail) = text := by rw [← heq, String.ofList_toList]
    rw [heq, List.cons_append, readToken_of_isWordChar hchar, Cursor.readFrom,
      if_neg (by simp [isDigit_of_isWordStart hfirst]), if_pos hfirst, Cursor.readWord,
      ← List.cons_append, htake, hdrop]

lemma reads_keyword (hkind : kind ∈ TokenKind.keywords) (apart : Apart rest) :
    Reads kind (kind.spelling?.getD "") rest := by
  have hkeywords : ∀ kind ∈ TokenKind.keywords, isWord (kind.spelling?.getD "") = true ∧
      TokenKind.ofKeyword? (kind.spelling?.getD "") = some kind := by decide
  obtain ⟨hword, hkeyword⟩ := hkeywords kind hkind
  simpa [hkeyword] using reads_word hword apart

lemma reads_name {text : String} (hword : isWord text = true)
    (hkeyword : TokenKind.ofKeyword? text = none) (apart : Apart rest) :
    Reads .name text rest := by
  simpa [hkeyword] using reads_word hword apart

/-- Digits are an integer. -/
lemma reads_integer {digits : List Char} (hne : digits ≠ [])
    (hdigits : ∀ c ∈ digits, c.isDigit = true) (apart : Apart rest) :
    Reads .integer (String.ofList digits) rest := by
  intro line
  obtain ⟨first, tail, rfl⟩ := List.exists_cons_of_ne_nil hne
  have hfirst : first.isDigit = true := hdigits first (List.mem_cons_self ..)
  obtain ⟨htake, hdrop⟩ := takeWhile_append_apart hdigits (by decide) apart
  have hpoint : ∀ tail, rest ≠ '.' :: tail := by
    rintro tail rfl
    obtain _ | ⟨_, ends⟩ := apart
    exact absurd ends (by decide)
  rw [String.toList_ofList, List.cons_append,
    readToken_of_isWordChar (isWordChar_of_isDigit hfirst), Cursor.readFrom, if_pos hfirst,
    Cursor.readNumber, ← List.cons_append, htake, hdrop]
  split
  · next heq =>
    split at heq
    · exact absurd rfl (hpoint _)
    · cases heq
      rfl

/-- The digits in front of a point end there. -/
lemma takeWhile_digits_point {whole : List Char} (hwhole : ∀ c ∈ whole, c.isDigit = true)
    (tail : List Char) : (whole ++ '.' :: tail).takeWhile Char.isDigit = whole ∧
      (whole ++ '.' :: tail).dropWhile Char.isDigit = '.' :: tail := by
  rw [List.takeWhile_append_of_pos hwhole, List.dropWhile_append_of_pos hwhole]
  simp

/-- Digits with a point between them are a float. -/
lemma reads_float {whole fraction : List Char} (hne : whole ≠ [])
    (hwhole : ∀ c ∈ whole, c.isDigit = true) (hfraction : ∀ c ∈ fraction, c.isDigit = true)
    (apart : Apart rest) :
    Reads .float (String.ofList (whole ++ '.' :: fraction)) rest := by
  intro line
  obtain ⟨first, tail, rfl⟩ := List.exists_cons_of_ne_nil hne
  have hfirst : first.isDigit = true := hwhole first (List.mem_cons_self ..)
  obtain ⟨htake, hdrop⟩ := takeWhile_append_apart hfraction (by decide) apart
  have hsplit : '.' :: fraction ++ rest = '.' :: (fraction ++ rest) := List.cons_append ..
  obtain ⟨htakeWhole, hdropWhole⟩ := takeWhile_digits_point hwhole (fraction ++ rest)
  rw [String.toList_ofList, List.append_assoc, hsplit, List.cons_append,
    readToken_of_isWordChar (isWordChar_of_isDigit hfirst), Cursor.readFrom, if_pos hfirst,
    Cursor.readNumber, ← List.cons_append, htakeWhole, hdropWhole]
  simp only [htake, hdrop]

/-! ## Characters -/

namespace CharConstant

/-- What may stand between the quotes: a character that is neither a quote, nor a backslash, nor the
end of a line; or a backslash with a character behind it that is not the end of a line, and after
an `x` up to two hexadecimal digits. -/
inductive IsBody : List Char → Prop
  | plain {c : Char} (hplain : c ∉ ['\\', '\'', '\n']) : IsBody [c]
  | escape {e : Char} (he : e ∉ ['x', '\n']) : IsBody ['\\', e]
  | hex {digits : List Char} (hlength : digits.length ≤ 2)
      (hdigits : ∀ d ∈ digits, Cursor.isHexDigit d = true) : IsBody ('\\' :: 'x' :: digits)

lemma hexDigits_append {digits : List Char} (hlength : digits.length ≤ 2)
    (hdigits : ∀ d ∈ digits, Cursor.isHexDigit d = true) (rest : List Char) :
    ((digits ++ '\'' :: rest).take 2).takeWhile Cursor.isHexDigit = digits := by
  have hquote : Cursor.isHexDigit '\'' = false := by decide
  match digits, hlength, hdigits with
  | [], _, _ => cases rest <;> simp [hquote]
  | [a], _, h => simp [hquote, h a (List.mem_singleton_self a)]
  | [a, b], _, h => simp [h a (by simp), h b (by simp)]

/-- What is behind the quote at the end of a constant does not matter. -/
lemma readQuoted_of_isBody {body : List Char} (h : IsBody body) (rest : List Char) (line : Nat) :
    Cursor.readQuoted line (body ++ '\'' :: rest) =
      (.ok ⟨.char, String.ofList ('\'' :: body ++ ['\'']), line⟩, ⟨rest, line⟩) := by
  cases h with
  | plain hplain =>
    simp only [List.mem_cons, List.not_mem_nil, or_false, not_or] at hplain
    simp [Cursor.readQuoted, Cursor.closeQuote, hplain]
  | escape he =>
    simp only [List.mem_cons, List.not_mem_nil, or_false, not_or] at he
    simp [Cursor.readQuoted, Cursor.closeQuote, he]
  | hex hlength hdigits =>
    simp [Cursor.readQuoted, Cursor.closeQuote, hexDigits_append hlength hdigits]

/-- The three forms in which a character is written. -/
inductive Encodes (c : Char) : List Char → Prop
  | plain (hplain : c ∉ ['\\', '\'', '\n']) : Encodes c [c]
  | escape {e : Char} (he : e ∉ ['x', '\n']) (value : ofEscape? [e] = some c) :
      Encodes c ['\\', e]
  | hex {a b : Char} (ha : Cursor.isHexDigit a = true) (hb : Cursor.isHexDigit b = true)
      (value : ofEscape? ['x', a, b] = some c) : Encodes c ['\\', 'x', a, b]

lemma Encodes.isBody {body : List Char} (h : Encodes c body) : IsBody body := by
  cases h with
  | plain hplain => exact .plain hplain
  | escape he _ => exact .escape he
  | hex ha hb _ => exact .hex le_rfl (by simp [ha, hb])

lemma encodes_encode (c : Char) : Encodes c (encode c) := by
  unfold encode
  split
  · next h =>
    subst h
    exact .escape (by decide) rfl
  split
  · next h =>
    subst h
    exact .escape (by decide) rfl
  split
  · next h =>
    subst h
    exact .escape (by decide) rfl
  split
  · next h =>
    subst h
    exact .escape (by decide) rfl
  split
  · next h =>
    subst h
    exact .escape (by decide) rfl
  split
  · next h =>
    subst h
    exact .escape (by decide) rfl
  split
  · next hcontrol =>
    have hdigit : ∀ n < 0x80, Cursor.isHexDigit (hexDigit (n / 16)) = true ∧
        Cursor.isHexDigit (hexDigit (n % 16)) = true ∧
        ofEscape? ['x', hexDigit (n / 16), hexDigit (n % 16)] = some (Char.ofNat n) := by
      decide
    obtain ⟨ha, hb, hvalue⟩ := hdigit c.toNat (by omega)
    exact .hex ha hb (by rw [hvalue, Char.ofNat_toNat])
  · refine .plain ?_
    simp_all

/-- A character that is not escaped stands for itself. -/
lemma decode?_plain {c : Char} (hplain : c ∉ ['\\', '\'', '\n']) : decode? [c] = some c := by
  simp only [List.mem_cons, List.not_mem_nil, or_false, not_or] at hplain
  simp [decode?, hplain]

/-- A character is what its constant stands for. -/
lemma decode?_encode (c : Char) : decode? (encode c) = some c := by
  have hform := encodes_encode c
  generalize encode c = body at hform ⊢
  cases hform with
  | plain hplain => exact decode?_plain hplain
  | escape _ value => exact value
  | hex _ _ value => exact value

/-- A constant stands for what its body stands for. -/
lemma unquote?_ofList (body : List Char) :
    unquote? (String.ofList ('\'' :: body ++ ['\''])) = decode? body := by
  have hlast : (body ++ ['\'']).getLast? = some '\'' := by simp
  have hdrop : (body ++ ['\'']).dropLast = body := by simp
  rw [unquote?, String.toList_ofList]
  simp only [List.cons_append, hlast, hdrop, if_true]

lemma unquote?_quote (c : Char) : unquote? (quote c) = some c := by
  rw [quote, unquote?_ofList, decode?_encode]

end CharConstant

lemma reads_constant {body : List Char} (h : CharConstant.IsBody body) (rest : List Char) :
    Reads .char (String.ofList ('\'' :: body ++ ['\''])) rest := by
  intro line
  have hquoted := CharConstant.readQuoted_of_isBody h rest line
  rw [String.toList_ofList, List.cons_append, List.cons_append, List.append_assoc,
    readToken_cons (by decide) (by decide)]
  exact hquoted

lemma reads_char (c : Char) (rest : List Char) : Reads .char (CharConstant.quote c) rest :=
  reads_constant (CharConstant.encodes_encode c).isBody rest

/-! ## Literals -/

/-- The digits of an integer that is not negative. -/
lemma toString_of_nonneg {n : Int} (hn : 0 ≤ n) :
    toString n = String.ofList (Nat.toDigits 10 n.toNat) := by
  obtain ⟨k, rfl⟩ := Int.eq_ofNat_of_zero_le hn
  exact Nat.repr_eq_ofList_toDigits

/-- An integer that is not negative is the value of its digits. -/
lemma ofDigits_toString {value : Int64} (hvalue : 0 ≤ value.toInt) :
    Decimal.ofDigits (toString value.toInt).toList < Nat.pow 2 63 ∧
      Int64.ofNat (Decimal.ofDigits (toString value.toInt).toList) = value := by
  rw [toString_of_nonneg hvalue, String.toList_ofList, Decimal.ofDigits_toDigits]
  have hlt := value.toInt_lt
  have hbound : Nat.pow 2 63 = 9223372036854775808 := rfl
  refine ⟨by omega, ?_⟩
  rw [← Int64.toInt_inj, Int64.toInt_ofNat_of_lt (by omega)]
  omega

/-- The word for a literal is read as one token. -/
lemma Literal.reads_word {value : Literal} (hvalue : value.IsWritten) : ∃ kind text,
    value.word = .word kind text ∧ kind ∈ [TokenKind.integer, .float, .char, .kwTrue, .kwFalse] ∧
      ∀ rest, Apart rest → Reads kind text rest := by
  cases value with
  | int value line =>
    refine ⟨_, _, rfl, by decide, fun rest apart => ?_⟩
    rw [toString_of_nonneg hvalue]
    exact reads_integer Nat.toDigits_ne_nil (fun c hc => Decimal.isDigit_of_mem_toDigits hc) apart
  | float value line =>
    refine ⟨_, _, rfl, by decide, fun rest apart => ?_⟩
    obtain ⟨whole, fraction, heq, hne, hwhole, hfraction⟩ := Decimal.isPointed_plain hvalue
    rw [heq]
    exact reads_float hne hwhole hfraction apart
  | bool value line =>
    cases value with
    | true => exact ⟨_, _, rfl, by decide, fun rest => reads_keyword (by decide)⟩
    | false => exact ⟨_, _, rfl, by decide, fun rest => reads_keyword (by decide)⟩
  | char value line => exact ⟨_, _, rfl, by decide, fun rest _ => reads_char value rest⟩

/-- The word that an infinite float without a sign is written as. -/
def Piece.infinity : TokenKind × String :=
  (.float, "inf.0")

lemma Decimal.plain_of_infinite {x : Float} (hx : Parts.ofFloat x = .infinite false) :
    plain x = Piece.infinity.2 := by
  rw [plain, hx]
  rfl

/-- The word for a literal without a sign can be read unless it stands for an infinite float. -/
lemma Literal.IsUnsigned.isWritten_or_infinite {value : Literal} (h : value.IsUnsigned) :
    value.IsWritten ∨ value.word = .word Piece.infinity.1 Piece.infinity.2 := by
  cases value with
  | int value line => exact .inl h
  | float value line =>
    obtain hzero | hfinite | hinfinite := h
    · exact .inl (.inl hzero)
    · exact .inl (.inr hfinite)
    · exact .inr (congrArg (Piece.word .float) (Decimal.plain_of_infinite hinfinite))
  | bool value line => exact .inl trivial
  | char value line => exact .inl trivial

end BlockLang
