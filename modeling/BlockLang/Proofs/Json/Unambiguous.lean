import BlockLang.Proofs.Json.Texts

/-!
# A document is determined by its text

Two documents with the same text are read as the same (`Json.asRead_eq_of_compact_eq`).  What is
read is the document itself, except that a float that is not finite is written as `null` and so is
read as nothing (`Json.asRead`).

The proof goes along one of the documents with anything behind the two texts.  The first character
shows of which kind both documents are (`Json.kind_eq_of_append_eq`), and each kind ends by itself:
words and quoted texts by their characters, and arrays and objects at the bracket behind their last
part.
-/

namespace BlockLang

namespace Json

/-! ## What is read -/

mutual

/-- A document as it can be read from its text. -/
def asRead : Json → Json
  | float value => if (Decimal.documented? value).isSome then float value else null
  | array items => array (asReadItems items)
  | object fields => object (asReadFields fields)
  | other => other

/-- The items of an array as they can be read. -/
def asReadItems : List Json → List Json
  | [] => []
  | item :: rest => item.asRead :: asReadItems rest

/-- The fields of an object as they can be read. -/
def asReadFields : List (String × Json) → List (String × Json)
  | [] => []
  | (name, value) :: rest => (name, value.asRead) :: asReadFields rest

end

/-! ## Kinds of documents -/

/-- The kinds of documents.  Documents without parts other than texts are written as words. -/
inductive Kind
  | word
  | text
  | array
  | object

def kind : Json → Kind
  | text _ => .text
  | array _ => .array
  | object _ => .object
  | _ => .word

/-- The kind of a document shows in its first character. -/
def Kind.ofChar (c : Char) : Kind :=
  if c = '"' then .text
  else if c = '[' then .array
  else if c = '\x7b' then .object
  else .word

variable {document document' : Json} {behind behind' : List Char}

/-- The words of documents are what is read from them. -/
lemma wordFor_compact (h : document.kind = .word) :
    WordFor document.asRead document.compact := by
  cases document with
  | null => exact .null
  | bool value => exact .bool value
  | int value => exact .int value
  | float value =>
    have hcompact : (float value).compact = (Decimal.documented? value).getD "null" := rfl
    rw [asRead, hcompact]
    cases hvalue : Decimal.documented? value with
    | none => exact .null
    | some word => exact .float hvalue
  | text _ | array _ | object _ => cases h

lemma notMem_of_isWordChar {c : Char} (h : isWordChar c = true) :
    c ∉ ['"', '[', '\x7b', ',', ']', '\x7d'] := by
  intro hmem
  have hnone : ['"', '[', '\x7b', ',', ']', '\x7d'].any isWordChar = false := by decide
  exact List.any_eq_false.mp hnone c hmem h

/-- A document begins with a character of its kind and not with one that ends another. -/
lemma exists_compact_eq (document : Json) : ∃ first rest,
    document.compact.toList = first :: rest ∧ Kind.ofChar first = document.kind ∧
      first ∉ [',', ']', '\x7d'] := by
  by_cases hword : document.kind = .word
  · obtain ⟨first, rest, htext, hchars⟩ := (wordFor_compact hword).exists_eq
    have hfirst := notMem_of_isWordChar (hchars first (List.mem_cons_self ..))
    simp only [List.mem_cons, List.not_mem_nil, or_false, not_or] at hfirst
    refine ⟨first, rest, htext, ?_, by simp [hfirst]⟩
    simp [Kind.ofChar, hfirst, hword]
  · cases document with
    | text s => exact ⟨'"', _, toList_quoted s, rfl, by decide⟩
    | array items =>
      have hcompact : (array items).compact = "[" ++ compactItems items ++ "]" := rfl
      refine ⟨'[', (compactItems items).toList ++ [']'], ?_, rfl, by decide⟩
      rw [hcompact]
      simp
    | object fields =>
      have hcompact : (object fields).compact = "\x7b" ++ compactFields fields ++ "\x7d" := rfl
      refine ⟨'\x7b', (compactFields fields).toList ++ ['\x7d'], ?_, rfl, by decide⟩
      rw [hcompact]
      simp
    | _ => exact absurd rfl hword

/-- Documents with texts that begin alike are of one kind. -/
lemma kind_eq_of_append_eq (h : document.compact.toList ++ behind =
    document'.compact.toList ++ behind') : document.kind = document'.kind := by
  obtain ⟨first, rest, htext, hkind, -⟩ := document.exists_compact_eq
  obtain ⟨first', rest', htext', hkind', -⟩ := document'.exists_compact_eq
  rw [htext, htext'] at h
  obtain ⟨rfl, -⟩ := List.cons.inj h
  exact hkind.symm.trans hkind'

/-! ## Brackets and what is between them -/

/-- The items behind the first one, each behind a comma. -/
def itemsBehind : List Json → List Char
  | [] => []
  | item :: rest => ',' :: (item.compact.toList ++ itemsBehind rest)

/-- A field: its name, a colon and its value. -/
def fieldChars (name : String) (value : Json) : List Char :=
  (quoted name).toList ++ ':' :: value.compact.toList

/-- The fields behind the first one, each behind a comma. -/
def fieldsBehind : List (String × Json) → List Char
  | [] => []
  | (name, value) :: rest => ',' :: (fieldChars name value ++ fieldsBehind rest)

lemma toList_compactItems (item : Json) (rest : List Json) :
    (compactItems (item :: rest)).toList = item.compact.toList ++ itemsBehind rest := by
  induction rest generalizing item with
  | nil => simp [compactItems, itemsBehind]
  | cons second rest ih =>
    rw [compactItems, String.toList_append, String.toList_append, ih, itemsBehind]
    · simp
    · simp

lemma toList_compactFields (name : String) (value : Json) (rest : List (String × Json)) :
    (compactFields ((name, value) :: rest)).toList =
      fieldChars name value ++ fieldsBehind rest := by
  induction rest generalizing name value with
  | nil => simp [compactFields, fieldsBehind, fieldChars]
  | cons second rest ih =>
    obtain ⟨name', value'⟩ := second
    rw [compactFields, String.toList_append, String.toList_append, ih, fieldsBehind]
    · simp [fieldChars]
    · simp

lemma toList_array_cons (item : Json) (rest : List Json) : (array (item :: rest)).compact.toList =
    '[' :: (item.compact.toList ++ (itemsBehind rest ++ [']'])) := by
  have hcompact : (array (item :: rest)).compact = "[" ++ compactItems (item :: rest) ++ "]" := rfl
  rw [hcompact, String.toList_append, String.toList_append, toList_compactItems]
  simp

lemma toList_object_cons (name : String) (value : Json) (rest : List (String × Json)) :
    (object ((name, value) :: rest)).compact.toList =
      '\x7b' :: (fieldChars name value ++ (fieldsBehind rest ++ ['\x7d'])) := by
  have hcompact : (object ((name, value) :: rest)).compact =
      "\x7b" ++ compactFields ((name, value) :: rest) ++ "\x7d" := rfl
  rw [hcompact, String.toList_append, String.toList_append, toList_compactFields]
  simp

/-- An array that is not empty does not end where it begins. -/
lemma bracket_ne (item : Json) (rest : List Json) (behind behind' : List Char) :
    (array []).compact.toList ++ behind ≠ (array (item :: rest)).compact.toList ++ behind' := by
  obtain ⟨first, tail, htext, -, hfirst⟩ := item.exists_compact_eq
  intro h
  rw [toList_array_cons, htext] at h
  obtain ⟨rfl, -⟩ := List.cons.inj (List.cons.inj h).2
  exact absurd hfirst (by decide)

/-- An object that is not empty does not end where it begins. -/
lemma brace_ne (name : String) (value : Json) (rest : List (String × Json))
    (behind behind' : List Char) : (object []).compact.toList ++ behind ≠
      (object ((name, value) :: rest)).compact.toList ++ behind' := by
  intro h
  rw [toList_object_cons, fieldChars, toList_quoted] at h
  exact absurd (List.cons.inj (List.cons.inj h).2).1 (by decide)

/-- What may follow a word without being read as a part of it. -/
def Stops (behind : List Char) : Prop :=
  ∀ c ∈ behind.head?, isWordChar c = false

lemma stops_nil : Stops [] :=
  nofun

lemma stops_itemsBehind (items : List Json) (behind : List Char) :
    Stops (itemsBehind items ++ ']' :: behind) := by
  cases items <;> simp [Stops, itemsBehind] <;> decide

lemma stops_fieldsBehind (fields : List (String × Json)) (behind : List Char) :
    Stops (fieldsBehind fields ++ '\x7d' :: behind) := by
  cases fields <;> simp [Stops, fieldsBehind] <;> decide

lemma word_append_inj (hword : document.kind = .word) (hstops : Stops behind)
    (hstops' : Stops behind')
    (h : document.compact.toList ++ behind = document'.compact.toList ++ behind') :
    document.asRead = document'.asRead ∧ behind = behind' := by
  have hword' : document'.kind = .word := (kind_eq_of_append_eq h).symm.trans hword
  exact (wordFor_compact hword).append_inj (wordFor_compact hword') hstops hstops' h

mutual

/-- A document ends by itself in front of anything that cannot go on with a word, and its text
tells what it is read as. -/
theorem compact_append_inj : ∀ (document document' : Json) {behind behind' : List Char},
    Stops behind → Stops behind' →
    document.compact.toList ++ behind = document'.compact.toList ++ behind' →
    document.asRead = document'.asRead ∧ behind = behind'
  | .null, _, _, _, hstops, hstops', h | .bool _, _, _, _, hstops, hstops', h
  | .int _, _, _, _, hstops, hstops', h | .float _, _, _, _, hstops, hstops', h =>
    word_append_inj rfl hstops hstops' h
  | .text s, document', _, _, _, _, h => by
    have hkind := kind_eq_of_append_eq h
    cases document' with
    | text s' =>
      obtain ⟨rfl, hbehind⟩ := quoted_append_inj h
      exact ⟨rfl, hbehind⟩
    | _ => cases hkind
  | .array [], document', _, _, _, _, h => by
    have hkind := kind_eq_of_append_eq h
    cases document' with
    | array items' =>
      cases items' with
      | nil => exact ⟨rfl, List.append_cancel_left h⟩
      | cons item' rest' => exact absurd h (bracket_ne item' rest' _ _)
    | _ => cases hkind
  | .array (item :: rest), document', behind, behind', _, _, h => by
    have hkind := kind_eq_of_append_eq h
    cases document' with
    | array items' =>
      cases items' with
      | nil => exact absurd h.symm (bracket_ne item rest _ _)
      | cons item' rest' =>
        simp only [toList_array_cons, List.cons_append, List.append_assoc, List.nil_append] at h
        have htexts : itemsBehind (item :: rest) ++ ']' :: behind =
            itemsBehind (item' :: rest') ++ ']' :: behind' := by
          simp only [itemsBehind, List.cons_append, List.append_assoc]
          exact congrArg (List.cons ',') (List.cons.inj h).2
        obtain ⟨hitems, hbehind⟩ := itemsBehind_append_inj (item :: rest) (item' :: rest') htexts
        exact ⟨congrArg array hitems, hbehind⟩
    | _ => cases hkind
  | .object [], document', _, _, _, _, h => by
    have hkind := kind_eq_of_append_eq h
    cases document' with
    | object fields' =>
      cases fields' with
      | nil => exact ⟨rfl, List.append_cancel_left h⟩
      | cons field' rest' => exact absurd h (brace_ne field'.1 field'.2 rest' _ _)
    | _ => cases hkind
  | .object ((name, value) :: rest), document', behind, behind', _, _, h => by
    have hkind := kind_eq_of_append_eq h
    cases document' with
    | object fields' =>
      cases fields' with
      | nil => exact absurd h.symm (brace_ne name value rest _ _)
      | cons field' rest' =>
        obtain ⟨name', value'⟩ := field'
        simp only [toList_object_cons, List.cons_append, List.append_assoc, List.nil_append] at h
        have htexts : fieldsBehind ((name, value) :: rest) ++ '\x7d' :: behind =
            fieldsBehind ((name', value') :: rest') ++ '\x7d' :: behind' := by
          simp only [fieldsBehind, List.cons_append, List.append_assoc]
          exact congrArg (List.cons ',') (List.cons.inj h).2
        obtain ⟨hfields, hbehind⟩ := fieldsBehind_append_inj ((name, value) :: rest)
          ((name', value') :: rest') htexts
        exact ⟨congrArg object hfields, hbehind⟩
    | _ => cases hkind

/-- The items behind the first one end at the bracket. -/
theorem itemsBehind_append_inj : ∀ (items items' : List Json) {behind behind' : List Char},
    itemsBehind items ++ ']' :: behind = itemsBehind items' ++ ']' :: behind' →
    asReadItems items = asReadItems items' ∧ behind = behind'
  | [], [], _, _, h => ⟨rfl, (List.cons.inj h).2⟩
  | [], _ :: _, _, _, h => absurd (List.cons.inj h).1 (by decide)
  | _ :: _, [], _, _, h => absurd (List.cons.inj h).1 (by decide)
  | item :: rest, item' :: rest', behind, behind', h => by
    simp only [itemsBehind, List.cons_append, List.append_assoc] at h
    obtain ⟨hitem, hrest⟩ := compact_append_inj item item' (stops_itemsBehind rest behind)
      (stops_itemsBehind rest' behind') (List.cons.inj h).2
    obtain ⟨hitems, hbehind⟩ := itemsBehind_append_inj rest rest' hrest
    exact ⟨congrArg₂ List.cons hitem hitems, hbehind⟩

/-- The fields behind the first one end at the bracket. -/
theorem fieldsBehind_append_inj : ∀ (fields fields' : List (String × Json))
    {behind behind' : List Char},
    fieldsBehind fields ++ '\x7d' :: behind = fieldsBehind fields' ++ '\x7d' :: behind' →
    asReadFields fields = asReadFields fields' ∧ behind = behind'
  | [], [], _, _, h => ⟨rfl, (List.cons.inj h).2⟩
  | [], (_, _) :: _, _, _, h => absurd (List.cons.inj h).1 (by decide)
  | (_, _) :: _, [], _, _, h => absurd (List.cons.inj h).1 (by decide)
  | (name, value) :: rest, (name', value') :: rest', behind, behind', h => by
    simp only [fieldsBehind, fieldChars, List.cons_append, List.append_assoc] at h
    obtain ⟨rfl, hfield⟩ := quoted_append_inj (List.cons.inj h).2
    obtain ⟨hvalue, hrest⟩ := compact_append_inj value value' (stops_fieldsBehind rest behind)
      (stops_fieldsBehind rest' behind') (List.cons.inj hfield).2
    obtain ⟨hfields, hbehind⟩ := fieldsBehind_append_inj rest rest' hrest
    have hfield : (name, value.asRead) = (name, value'.asRead) := by rw [hvalue]
    exact ⟨congrArg₂ List.cons hfield hfields, hbehind⟩

end

/-- Documents with the same text are read as the same. -/
theorem asRead_eq_of_compact_eq (h : document.compact = document'.compact) :
    document.asRead = document'.asRead := by
  refine (compact_append_inj document document' stops_nil stops_nil ?_).1
  rw [h]

end Json

end BlockLang
