import BlockLang.Json
import BlockLang.Proofs.Decimal.Documented
import BlockLang.Text.CharConstant

/-!
# The words of documents

A document is written with quoted texts, with words, and with brackets, commas and colons between
them.  Quoted texts and words end by themselves: a quoted text at its second quote, whatever is
escaped in it (`Json.quoted_append_inj`), and a word where no character of a word follows
(`Json.WordFor.append_inj`).  The characters of both give back what is written.
-/

namespace BlockLang

namespace Json

variable {c c' : Char} {text text' behind behind' : List Char}

/-! ## Escapes -/

/-- The characters with an escape of their own, each behind the letter or mark of its escape. -/
def escapes : List (Char × Char) :=
  [('"', '"'), ('\\', '\\'), ('b', '\x08'), ('f', '\x0c'), ('n', '\n'), ('r', '\r'), ('t', '\t')]

/-- The three forms in which a character is written. -/
inductive Escapes (c : Char) : List Char → Prop
  | plain (hquote : c ≠ '"') (hbackslash : c ≠ '\\') : Escapes c [c]
  | short {e : Char} (he : (e, c) ∈ escapes) : Escapes c ['\\', e]
  | code {a b : Char} {high low : Nat} (ha : CharConstant.hexDigit? a = some high)
      (hb : CharConstant.hexDigit? b = some low) (value : Char.ofNat (16 * high + low) = c) :
      Escapes c ['\\', 'u', '0', '0', a, b]

/-- A control character is written by its code. -/
lemma escapes_code {n : Nat} (hn : n < 0x20) : Escapes (Char.ofNat n)
    ['\\', 'u', '0', '0', CharConstant.hexDigit (n / 16), CharConstant.hexDigit (n % 16)] := by
  have hdigit : ∀ n < 0x20,
      CharConstant.hexDigit? (CharConstant.hexDigit (n / 16)) = some (n / 16) ∧
        CharConstant.hexDigit? (CharConstant.hexDigit (n % 16)) = some (n % 16) := by
    decide
  obtain ⟨hhigh, hlow⟩ := hdigit n hn
  exact .code hhigh hlow (by rw [Nat.div_add_mod])

lemma escapes_escaped (c : Char) : Escapes c (escaped c).toList := by
  have hone : ∀ n < 0x10, ("\\u000" ++ Text.hex n).toList =
      ['\\', 'u', '0', '0', CharConstant.hexDigit (n / 16), CharConstant.hexDigit (n % 16)] := by
    decide
  have htwo : ∀ n < 0x20, 0x10 ≤ n → ("\\u00" ++ Text.hex n).toList =
      ['\\', 'u', '0', '0', CharConstant.hexDigit (n / 16), CharConstant.hexDigit (n % 16)] := by
    decide
  have hshort : ∀ {e : Char} {written : String}, (e, c) ∈ escapes →
      written.toList = ['\\', e] → Escapes c written.toList := by
    intro e written he hwritten
    rw [hwritten]
    exact .short he
  unfold escaped
  split
  · next h => exact hshort (by rw [h]; decide) rfl
  split
  · next h => exact hshort (by rw [h]; decide) rfl
  split
  · next h => exact hshort (by rw [h]; decide) rfl
  split
  · next h => exact hshort (by rw [h]; decide) rfl
  split
  · next h => exact hshort (by rw [h]; decide) rfl
  split
  · next h => exact hshort (by rw [h]; decide) rfl
  split
  · next h => exact hshort (by rw [h]; decide) rfl
  split
  · next h =>
    have hcode := escapes_code (h.trans (by decide))
    rwa [Char.ofNat_toNat, ← hone c.toNat h] at hcode
  split
  · next hlow h =>
    have hcode := escapes_code h
    rwa [Char.ofNat_toNat, ← htwo c.toNat h (Nat.not_lt.mp hlow)] at hcode
  · next hquote hbackslash _ _ _ _ _ _ _ =>
    rw [String.toList_singleton]
    exact .plain hquote hbackslash

namespace Escapes

/-- No form of a character begins with a quote. -/
lemma exists_eq (h : Escapes c text) : ∃ first rest, text = first :: rest ∧ first ≠ '"' := by
  cases h with
  | plain hquote _ => exact ⟨c, [], rfl, hquote⟩
  | short _ => exact ⟨'\\', _, rfl, by decide⟩
  | code _ _ _ => exact ⟨'\\', _, rfl, by decide⟩

lemma escapes_unique {e : Char} (h : (e, c) ∈ escapes) (h' : (e, c') ∈ escapes) : c = c' := by
  have hall : ∀ p ∈ escapes, ∀ q ∈ escapes, p.1 = q.1 → p.2 = q.2 := by decide
  exact hall _ h _ h' rfl

lemma ne_of_escapes {e : Char} (h : (e, c) ∈ escapes) : e ≠ 'u' := by
  have hall : ∀ p ∈ escapes, p.1 ≠ 'u' := by decide
  exact hall _ h

/-- Each form ends by itself and is the form of one character. -/
lemma append_inj (h : Escapes c text) (h' : Escapes c' text')
    (heq : text ++ behind = text' ++ behind') : c = c' ∧ behind = behind' := by
  cases h with
  | plain _ hbackslash =>
    cases h' with
    | plain _ _ => exact List.cons.inj heq
    | short _ => exact absurd (List.cons.inj heq).1 hbackslash
    | code _ _ _ => exact absurd (List.cons.inj heq).1 hbackslash
  | short he =>
    cases h' with
    | plain _ hbackslash => exact absurd (List.cons.inj heq).1.symm hbackslash
    | short he' =>
      simp only [List.cons_append, List.nil_append, List.cons.injEq, true_and] at heq
      obtain ⟨rfl, hbehind⟩ := heq
      exact ⟨escapes_unique he he', hbehind⟩
    | code _ _ _ =>
      obtain ⟨-, hbehind⟩ := List.cons.inj heq
      exact absurd (List.cons.inj hbehind).1 (ne_of_escapes he)
  | code ha hb hvalue =>
    cases h' with
    | plain _ hbackslash => exact absurd (List.cons.inj heq).1.symm hbackslash
    | short he' =>
      obtain ⟨-, hbehind⟩ := List.cons.inj heq
      exact absurd (List.cons.inj hbehind).1.symm (ne_of_escapes he')
    | code ha' hb' hvalue' =>
      simp only [List.cons_append, List.nil_append, List.cons.injEq, true_and] at heq
      obtain ⟨rfl, rfl, rfl⟩ := heq
      obtain rfl := Option.some.inj (ha.symm.trans ha')
      obtain rfl := Option.some.inj (hb.symm.trans hb')
      exact ⟨hvalue.symm.trans hvalue', rfl⟩

end Escapes

/-! ## Quoted texts -/

/-- The characters of a text between its quotes. -/
def body (chars : List Char) : List Char :=
  chars.flatMap fun c => (escaped c).toList

lemma toList_quoted (text : String) :
    (quoted text).toList = '"' :: (body text.toList ++ ['"']) := by
  simp [quoted, body, String.toList_join, List.flatMap_map]

lemma body_cons (c : Char) (chars : List Char) :
    body (c :: chars) = (escaped c).toList ++ body chars :=
  List.flatMap_cons ..

/-- What is quoted ends at the first quote that is not escaped. -/
lemma body_append_inj : ∀ {chars chars' : List Char} {behind behind' : List Char},
    body chars ++ '"' :: behind = body chars' ++ '"' :: behind' →
    chars = chars' ∧ behind = behind'
  | [], [], _, _, h => ⟨rfl, (List.cons.inj h).2⟩
  | [], c' :: chars', _, _, h => by
    obtain ⟨first, rest, hfirst, hne⟩ := (escapes_escaped c').exists_eq
    rw [body_cons, hfirst] at h
    exact absurd (List.cons.inj h).1.symm hne
  | c :: chars, [], _, _, h => by
    obtain ⟨first, rest, hfirst, hne⟩ := (escapes_escaped c).exists_eq
    rw [body_cons, hfirst] at h
    exact absurd (List.cons.inj h).1 hne
  | c :: chars, c' :: chars', _, _, h => by
    rw [body_cons, body_cons, List.append_assoc, List.append_assoc] at h
    obtain ⟨rfl, hchars⟩ := (escapes_escaped c).append_inj (escapes_escaped c') h
    obtain ⟨rfl, hbehind⟩ := body_append_inj hchars
    exact ⟨rfl, hbehind⟩

/-- A quoted text ends by itself and is the text that was quoted. -/
lemma quoted_append_inj {s s' : String}
    (h : (quoted s).toList ++ behind = (quoted s').toList ++ behind') :
    s = s' ∧ behind = behind' := by
  rw [toList_quoted, toList_quoted] at h
  simp only [List.cons_append, List.append_assoc, List.nil_append] at h
  obtain ⟨hchars, hbehind⟩ := body_append_inj (List.cons.inj h).2
  exact ⟨String.toList_inj.mp hchars, hbehind⟩

/-! ## Words -/

/-- The characters of words. -/
def isWordChar (c : Char) : Bool :=
  c.isAlphanum || c ∈ ['-', '+', '.']

/-- What can be read from a word: that there is nothing, a truth value, an integer or a float. -/
inductive WordFor : Json → String → Prop
  | null : WordFor null "null"
  | bool (value : Bool) : WordFor (bool value) (if value then "true" else "false")
  | int (value : Int) : WordFor (int value) (toString value)
  | float {value : Float} {text : String} (h : Decimal.documented? value = some text) :
    WordFor (float value) text

/-- The digits of an integer, behind a minus sign if it is negative. -/
lemma toList_toString (n : Int) :
    (toString n).toList = (if n < 0 then ['-'] else []) ++ Nat.toDigits 10 n.natAbs := by
  cases n with
  | ofNat k =>
    have htext : toString (Int.ofNat k) = String.ofList (Nat.toDigits 10 k) :=
      Nat.repr_eq_ofList_toDigits
    have hsign : ¬ Int.ofNat k < 0 := Int.not_lt.mpr (Int.natCast_nonneg k)
    rw [htext, String.toList_ofList, if_neg hsign]
    rfl
  | negSucc k =>
    have htext : toString (Int.negSucc k) = "-" ++ Nat.repr (k + 1) := rfl
    have hminus : "-".toList = ['-'] := rfl
    rw [htext, Nat.repr_eq_ofList_toDigits, String.toList_append, hminus, String.toList_ofList,
      if_pos (Int.negSucc_lt_zero k)]
    rfl

lemma mem_toString {n : Int} (h : c ∈ (toString n).toList) : c.isDigit = true ∨ c = '-' := by
  rw [toList_toString, List.mem_append] at h
  obtain h | h := h
  · split at h
    · exact .inr (List.mem_singleton.mp h)
    · cases h
  · exact .inl (Decimal.isDigit_of_mem_toDigits h)

lemma exists_toString_eq (n : Int) : ∃ first rest, (toString n).toList = first :: rest := by
  refine List.exists_cons_of_ne_nil fun hnil => ?_
  rw [toList_toString, List.append_eq_nil_iff] at hnil
  exact Nat.toDigits_ne_nil hnil.2

/-- An integer is the one that is written. -/
lemma toString_injective {n m : Int} (h : toString n = toString m) : n = m := by
  have hsign : ∀ n : Int, '-' ∈ (toString n).toList ↔ n < 0 := by
    intro n
    rw [toList_toString, List.mem_append]
    constructor
    · rintro (hmem | hmem)
      · by_contra hn
        simp [hn] at hmem
      · exact absurd (Decimal.isDigit_of_mem_toDigits hmem) (by decide)
    · intro hn
      exact .inl (by simp [hn])
  have hdigits : ∀ n : Int, (toString n).toList.filter Char.isDigit = Nat.toDigits 10 n.natAbs := by
    intro n
    have hall : (Nat.toDigits 10 n.natAbs).filter Char.isDigit = Nat.toDigits 10 n.natAbs :=
      List.filter_eq_self.mpr fun _ hc => Decimal.isDigit_of_mem_toDigits hc
    rw [toList_toString, List.filter_append, hall]
    split <;> rfl
  have habs : n.natAbs = m.natAbs := by
    rw [← Decimal.ofDigits_toDigits n.natAbs, ← hdigits, h, hdigits, Decimal.ofDigits_toDigits]
  have hnegative : n < 0 ↔ m < 0 := by rw [← hsign, h, hsign]
  omega

/-- The classes of words: names, integers and other numbers. -/
inductive WordClass
  | name
  | integer
  | fraction

/-- The class of a word shows in its characters. -/
def WordClass.ofWord (word : String) : WordClass :=
  if word.toList.head?.any (· ∈ ['n', 't', 'f']) then .name
  else if '.' ∈ word.toList ∨ 'e' ∈ word.toList then .fraction
  else .integer

/-- The class of the word that stands for a document. -/
def WordClass.ofDocument : Json → WordClass
  | .int _ => .integer
  | .float _ => .fraction
  | _ => .name

namespace WordFor

variable {document document' : Json} {word word' : String}

/-- What begins with a digit or a sign is no name. -/
lemma ofWord_of_number {first : Char} {rest : List Char} (hword : word.toList = first :: rest)
    (hfirst : first.isDigit = true ∨ first = '-') : WordClass.ofWord word =
      if '.' ∈ word.toList ∨ 'e' ∈ word.toList then .fraction else .integer := by
  have hname : first ∉ ['n', 't', 'f'] := by
    intro hmem
    simp only [List.mem_cons, List.not_mem_nil, or_false] at hmem
    rcases hmem with rfl | rfl | rfl <;> exact absurd hfirst (by decide)
  rw [WordClass.ofWord, if_neg]
  simpa [hword] using hname

/-- The class of a word is the class of what it stands for. -/
lemma class_eq (h : WordFor document word) :
    WordClass.ofWord word = WordClass.ofDocument document := by
  cases h with
  | null => rfl
  | bool value => cases value <;> rfl
  | int value =>
    obtain ⟨first, rest, hword⟩ := exists_toString_eq value
    have hpoint : '.' ∉ (toString value).toList := fun hmem =>
      absurd (mem_toString hmem) (by decide)
    have hexponent : 'e' ∉ (toString value).toList := fun hmem =>
      absurd (mem_toString hmem) (by decide)
    have hfirst := mem_toString (n := value) (hword ▸ List.mem_cons_self ..)
    rw [ofWord_of_number hword hfirst, if_neg]
    · rfl
    · exact not_or.mpr ⟨hpoint, hexponent⟩
  | float hvalue =>
    obtain ⟨first, rest, hword, hfirst, hmark, -⟩ := Decimal.exists_documented?_eq hvalue
    rw [ofWord_of_number hword hfirst, if_pos]
    · rfl
    · rw [hword]
      exact hmark.imp (List.mem_cons_of_mem _) (List.mem_cons_of_mem _)

/-- A word stands for one thing. -/
lemma unique (h : WordFor document word) (h' : WordFor document' word') (hword : word = word') :
    document = document' := by
  have hclass : WordClass.ofDocument document = WordClass.ofDocument document' := by
    rw [← h.class_eq, ← h'.class_eq, hword]
  cases h with
  | null =>
    cases h' with
    | null => rfl
    | bool value => cases value <;> exact absurd hword (by decide)
    | int _ => cases hclass
    | float _ => cases hclass
  | bool value =>
    cases h' with
    | null => cases value <;> exact absurd hword (by decide)
    | bool value' => cases value <;> cases value' <;> first | rfl | exact absurd hword (by decide)
    | int _ => cases hclass
    | float _ => cases hclass
  | int value =>
    cases h' with
    | int value' => rw [toString_injective hword]
    | _ => cases hclass
  | float hvalue =>
    cases h' with
    | float hvalue' =>
      subst hword
      rw [Decimal.documented?_injective hvalue hvalue']
    | _ => cases hclass

/-- Digits and the marks in numbers are characters of words. -/
lemma isWordChar_of_number {c : Char}
    (h : c.isDigit = true ∨ c ∈ ['-', '+', '.', 'e']) : isWordChar c = true := by
  obtain hdigit | hmark := h
  · simp [isWordChar, Char.isAlphanum, hdigit]
  · simp only [List.mem_cons, List.not_mem_nil, or_false] at hmark
    rcases hmark with rfl | rfl | rfl | rfl <;> decide

/-- A word has a character, and all of them are characters of words. -/
lemma exists_eq (h : WordFor document word) : ∃ first rest, word.toList = first :: rest ∧
    ∀ c ∈ first :: rest, isWordChar c = true := by
  cases h with
  | null => exact ⟨'n', ['u', 'l', 'l'], rfl, List.all_eq_true.mp (by decide)⟩
  | bool value =>
    cases value with
    | false => exact ⟨'f', ['a', 'l', 's', 'e'], rfl, List.all_eq_true.mp (by decide)⟩
    | true => exact ⟨'t', ['r', 'u', 'e'], rfl, List.all_eq_true.mp (by decide)⟩
  | int value =>
    obtain ⟨first, rest, hword⟩ := exists_toString_eq value
    refine ⟨first, rest, hword, fun c hc => isWordChar_of_number ?_⟩
    exact (mem_toString (hword ▸ hc)).imp_right fun hminus => by simp [hminus]
  | float hvalue =>
    obtain ⟨first, rest, hword, hfirst, -, hrest⟩ := Decimal.exists_documented?_eq hvalue
    refine ⟨first, rest, hword, fun c hc => isWordChar_of_number ?_⟩
    obtain rfl | hc := List.mem_cons.mp hc
    · exact hfirst.imp_right fun hminus => by simp [hminus]
    · exact hrest c hc

/-- A word ends where no character of a word follows, and it stands for one thing. -/
lemma append_inj (h : WordFor document word) (h' : WordFor document' word')
    (hbehind : ∀ c ∈ behind.head?, isWordChar c = false)
    (hbehind' : ∀ c ∈ behind'.head?, isWordChar c = false)
    (heq : word.toList ++ behind = word'.toList ++ behind') :
    document = document' ∧ behind = behind' := by
  obtain ⟨first, rest, hword, hchars⟩ := h.exists_eq
  obtain ⟨first', rest', hword', hchars'⟩ := h'.exists_eq
  rw [← hword] at hchars
  rw [← hword'] at hchars'
  obtain ⟨hsame, hbehinds⟩ := run_append_inj hchars hchars' hbehind hbehind' heq
  exact ⟨h.unique h' (String.toList_inj.mp hsame), hbehinds⟩

end WordFor

end Json

end BlockLang
