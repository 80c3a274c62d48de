import BlockLang.Proofs.Json.Unambiguous

/-!
# Documents without blanks

A document with one item per line differs from the same document in one line only by blanks, and
none of these is inside of a text (`Json.dense_pretty`).

`Json.dropBlanks` goes through the characters and keeps in mind whether they are inside of quotes.
Blanks inside of quotes stay, and everything else that is written is written without blanks.
-/

namespace BlockLang

namespace Json

/-- Where a character of a document stands. -/
inductive Place
  | outside
  /-- Between two quotes. -/
  | inside
  /-- Between two quotes and behind a backslash. -/
  | escaped

/-- The blanks that may stand between the parts of a document. -/
def isBlank (c : Char) : Bool :=
  c ∈ [' ', '\t', '\n', '\r']

/-- Leave out the blanks that are not inside of quotes. -/
def dropBlanks : Place → List Char → List Char
  | _, [] => []
  | .outside, c :: rest =>
    if isBlank c then dropBlanks .outside rest
    else c :: dropBlanks (if c = '"' then .inside else .outside) rest
  | .inside, c :: rest =>
    c :: dropBlanks (if c = '"' then .outside else if c = '\\' then .escaped else .inside) rest
  | .escaped, c :: rest => c :: dropBlanks .inside rest

/-- A document without the blanks that are not inside of quotes. -/
def dense (document : String) : String :=
  String.ofList (dropBlanks .outside document.toList)

/-- Without its blanks a part of a document is the same wherever it stands. -/
def Thins (part : String) (result : List Char) : Prop :=
  ∀ behind, dropBlanks .outside (part.toList ++ behind) = result ++ dropBlanks .outside behind

variable {part part' : String} {result result' : List Char}

namespace Thins

lemma append (h : Thins part result) (h' : Thins part' result') :
    Thins (part ++ part') (result ++ result') := by
  intro behind
  rw [String.toList_append, List.append_assoc, h, h', List.append_assoc]

/-- What has neither blanks nor quotes stays as it is. -/
lemma of_forall (h : ∀ c ∈ part.toList, isBlank c = false ∧ c ≠ '"') :
    Thins part part.toList := by
  intro behind
  generalize part.toList = chars at h
  induction chars with
  | nil => rfl
  | cons c rest ih =>
    obtain ⟨⟨hblank, hquote⟩, hrest⟩ := List.forall_mem_cons.mp h
    rw [List.cons_append, dropBlanks, if_neg (by simp [hblank]), if_neg hquote, ih hrest,
      List.cons_append]

/-- A mark stays as it is. -/
lemma mark {c : Char} (hblank : isBlank c = false) (hquote : c ≠ '"') :
    Thins (String.ofList [c]) [c] := by
  have hthin : Thins (String.ofList [c]) (String.ofList [c]).toList := by
    refine of_forall fun d hd => ?_
    rw [String.toList_ofList, List.mem_singleton] at hd
    exact hd ▸ ⟨hblank, hquote⟩
  rwa [String.toList_ofList] at hthin

/-- Blanks vanish. -/
lemma blanks (h : ∀ c ∈ part.toList, isBlank c = true) : Thins part [] := by
  intro behind
  generalize part.toList = chars at h
  induction chars with
  | nil => rfl
  | cons c rest ih =>
    obtain ⟨hblank, hrest⟩ := List.forall_mem_cons.mp h
    rw [List.cons_append, dropBlanks, if_pos hblank, ih hrest]

lemma newline (level : Nat) : Thins (newline level) [] := by
  refine blanks fun c hc => ?_
  rw [Json.newline, String.toList_ofList] at hc
  obtain rfl | hc := List.mem_cons.mp hc
  · decide
  · rw [List.eq_of_mem_replicate hc]
    decide

/-- A colon is followed by a blank. -/
lemma colon : Thins ": " [':'] := by
  intro behind
  have hcolon : (": ".toList ++ behind) = ':' :: ' ' :: behind := rfl
  rw [hcolon]
  rfl

end Thins

/-! ## Quoted texts -/

lemma dropBlanks_escapes {c : Char} {text : List Char} (h : Escapes c text)
    (behind : List Char) :
    dropBlanks .inside (text ++ behind) = text ++ dropBlanks .inside behind := by
  cases h with
  | plain hquote hbackslash => simp [dropBlanks, hquote, hbackslash]
  | short _ => simp [dropBlanks]
  | @code a b _ _ ha hb _ =>
    have hplain : ∀ {d : Char} {value : Nat}, CharConstant.hexDigit? d = some value →
        d ≠ '"' ∧ d ≠ '\\' := by
      intro d value hd
      constructor
      · rintro rfl
        cases hd
      · rintro rfl
        cases hd
    simp [dropBlanks, hplain ha, hplain hb]

lemma dropBlanks_body (chars behind : List Char) :
    dropBlanks .inside (body chars ++ '"' :: behind) =
      body chars ++ '"' :: dropBlanks .outside behind := by
  induction chars with
  | nil => rfl
  | cons c rest ih =>
    rw [body_cons, List.append_assoc, dropBlanks_escapes (escapes_escaped c), ih,
      List.append_assoc]

lemma thins_quoted (text : String) : Thins (quoted text) (quoted text).toList := by
  intro behind
  have hopen : ∀ rest, dropBlanks .outside ('"' :: rest) = '"' :: dropBlanks .inside rest :=
    fun _ => rfl
  rw [toList_quoted, List.cons_append, List.append_assoc, List.singleton_append, hopen,
    dropBlanks_body]
  simp

/-! ## Documents -/

variable {document : Json}

/-- A word is written in the same way on any level. -/
lemma thins_word (h : document.kind = .word) (level : Nat) :
    Thins (document.prettyAt level) document.compact.toList := by
  have hlevel : document.prettyAt level = document.compact := by
    cases document with
    | text _ | array _ | object _ => cases h
    | _ => simp [prettyAt, compact]
  rw [hlevel]
  obtain ⟨first, rest, htext, hchars⟩ := (wordFor_compact h).exists_eq
  refine Thins.of_forall fun c hc => ?_
  have hword := hchars c (htext ▸ hc)
  have hnone : [' ', '\t', '\n', '\r', '"'].any isWordChar = false := by decide
  constructor
  · rw [← Bool.not_eq_true]
    intro hblank
    rw [isBlank, decide_eq_true_eq] at hblank
    exact List.any_eq_false.mp hnone c (List.mem_append_left ['"'] hblank) hword
  · rintro rfl
    exact List.any_eq_false.mp hnone '"' (by decide) hword

mutual

/-- Without its blanks a document is as it is in one line. -/
theorem thins_prettyAt : ∀ (document : Json) (level : Nat),
    Thins (document.prettyAt level) document.compact.toList
  | .null, level | .bool _, level | .int _, level | .float _, level => thins_word rfl level
  | .text chars, level => by
    have hlevel : (text chars).prettyAt level = quoted chars := by simp [prettyAt, leaf]
    rw [hlevel]
    exact thins_quoted chars
  | .array [], level => by
    have hlevel : (array []).prettyAt level = "[" ++ "]" := by simp [prettyAt, leaf]
    have hopen : Thins "[" ['['] := .mark (by decide) (by decide)
    have hclose : Thins "]" [']'] := .mark (by decide) (by decide)
    rw [hlevel]
    exact hopen.append hclose
  | .object [], level => by
    have hlevel : (object []).prettyAt level = "\x7b" ++ "\x7d" := by simp [prettyAt, leaf]
    have hopen : Thins "\x7b" ['\x7b'] := .mark (by decide) (by decide)
    have hclose : Thins "\x7d" ['\x7d'] := .mark (by decide) (by decide)
    rw [hlevel]
    exact hopen.append hclose
  | .array (item :: rest), level => by
    have hopen : Thins "[" ['['] := .mark (by decide) (by decide)
    have hclose : Thins "]" [']'] := .mark (by decide) (by decide)
    have hitem := thins_prettyAt item (level + 1)
    have hrest := thins_prettyItems rest (level + 1)
    have hinner := ((hopen.append (.newline (level + 1))).append hitem).append hrest
    rw [toList_array_cons, prettyAt]
    simpa using (hinner.append (.newline level)).append hclose
  | .object ((name, value) :: rest), level => by
    have hopen : Thins "\x7b" ['\x7b'] := .mark (by decide) (by decide)
    have hclose : Thins "\x7d" ['\x7d'] := .mark (by decide) (by decide)
    have hname := (hopen.append (.newline (level + 1))).append (thins_quoted name)
    have hvalue := (hname.append .colon).append (thins_prettyAt value (level + 1))
    have hrest := hvalue.append (thins_prettyFields rest (level + 1))
    rw [toList_object_cons, fieldChars, prettyAt]
    simpa using (hrest.append (.newline level)).append hclose

theorem thins_prettyItems : ∀ (items : List Json) (level : Nat),
    Thins (prettyItems level items) (itemsBehind items)
  | [], _ => fun _ => rfl
  | item :: rest, level => by
    have hcomma : Thins "," [','] := .mark (by decide) (by decide)
    have hitem := (hcomma.append (.newline level)).append (thins_prettyAt item level)
    rw [prettyItems, itemsBehind]
    simpa using hitem.append (thins_prettyItems rest level)

theorem thins_prettyFields : ∀ (fields : List (String × Json)) (level : Nat),
    Thins (prettyFields level fields) (fieldsBehind fields)
  | [], _ => fun _ => rfl
  | (name, value) :: rest, level => by
    have hcomma : Thins "," [','] := .mark (by decide) (by decide)
    have hname := (hcomma.append (.newline level)).append (thins_quoted name)
    have hvalue := (hname.append .colon).append (thins_prettyAt value level)
    rw [prettyFields, fieldsBehind, fieldChars]
    simpa using hvalue.append (thins_prettyFields rest level)

end

/-- A document with one item per line, without its blanks, is the document in one line. -/
theorem dense_pretty (document : Json) : dense document.pretty = document.compact := by
  have hthin := thins_prettyAt document 0 []
  have hnil : dropBlanks .outside [] = [] := rfl
  rw [List.append_nil, hnil, List.append_nil] at hthin
  rw [dense, pretty, hthin, String.ofList_toList]

end Json

end BlockLang
