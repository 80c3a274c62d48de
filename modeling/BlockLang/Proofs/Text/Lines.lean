import BlockLang.Text.Quoted
import Mathlib.Data.List.Basic
import Mathlib.Tactic.Common

/-!
# Lines of text

`Text.lines` are the lines of a text, and `Text.IsLine` says that a text has no line end in it.  A
text that was put together from such texts, each with a line end behind it, has just these lines
(`Text.lines_join`).  What stands in quotes in a diagnostic has no line end in it, because line ends
are escaped (`Text.isLine_quoted`).
-/

namespace BlockLang.Text

/-- No line ends within the text. -/
def IsLine (text : String) : Prop :=
  '\n' ∉ text.toList
  deriving Decidable

/-- The lines of some characters, without the line ends that close them.  Behind the last line end
there need not be a line. -/
def splitLines : List Char → List (List Char)
  | [] => []
  | c :: rest =>
    if c = '\n' then [] :: splitLines rest
    else
      match splitLines rest with
      | [] => [[c]]
      | first :: later => (c :: first) :: later

/-- The lines of a text. -/
def lines (text : String) : List String :=
  (splitLines text.toList).map String.ofList

variable {a b : String}

@[simp] lemma isLine_append : IsLine (a ++ b) ↔ IsLine a ∧ IsLine b := by
  simp [IsLine, not_or]

/-! ## Numbers -/

/-- The digits of a number are on one line, in every base that digits are known for. -/
lemma newline_not_mem_toDigits {base : Nat} (hbase : 1 < base) (hlimit : base ≤ 16) (n : Nat) :
    '\n' ∉ Nat.toDigits base n := by
  have hdigit : ∀ d < 16, '\n' ≠ Nat.digitChar d := by decide
  induction n using Nat.strongRecOn with
  | ind n ih =>
    rw [Nat.toDigits_eq_if hbase]
    split
    · next hsmall =>
      intro hmem
      exact hdigit n (by omega) (List.mem_singleton.mp hmem)
    · next hlarge =>
      have hquotient : n / base < n := Nat.div_lt_self (by omega) hbase
      have hrest : n % base < base := Nat.mod_lt n (by omega)
      intro hmem
      rcases List.mem_append.mp hmem with hmem | hmem
      · exact ih (n / base) hquotient hmem
      · exact hdigit (n % base) (by omega) (List.mem_singleton.mp hmem)

@[simp] lemma isLine_repr (n : Nat) : IsLine n.repr := by
  have hdigits : n.repr.toList = Nat.toDigits 10 n := by simp
  rw [IsLine, hdigits]
  exact newline_not_mem_toDigits (by decide) (by decide) n

/-! ## Quoted text -/

/-- Line ends are escaped. -/
lemma isLine_escaped (quote c : Char) : IsLine (escaped quote c) := by
  have hcode : IsLine (hex c.toNat) := by
    rw [hex, IsLine, String.toList_ofList]
    exact newline_not_mem_toDigits (by decide) (by decide) c.toNat
  unfold escaped
  split
  · decide
  split
  · decide
  split
  · decide
  split
  · decide
  · next hnewline =>
    split
    · simp [IsLine, Ne.symm hnewline]
    split
    · simp [IsLine, Ne.symm hnewline]
    · exact isLine_append.mpr ⟨isLine_append.mpr ⟨by decide, hcode⟩, by decide⟩

lemma isLine_join {parts : List String} (h : ∀ part ∈ parts, IsLine part) :
    IsLine (String.join parts) := by
  simpa [IsLine] using h

@[simp] lemma isLine_quotedChar (c : Char) : IsLine (quotedChar c) :=
  isLine_append.mpr ⟨isLine_append.mpr ⟨by decide, isLine_escaped _ c⟩, by decide⟩

@[simp] lemma isLine_quoted (text : String) : IsLine (quoted text) := by
  have hinside : IsLine (String.join (text.toList.map (escaped '"'))) :=
    isLine_join (List.forall_mem_map.mpr fun c _ => isLine_escaped '"' c)
  exact isLine_append.mpr ⟨isLine_append.mpr ⟨by decide, hinside⟩, by decide⟩

/-! ## Lines that were put together -/

lemma splitLines_append {line : List Char} (h : '\n' ∉ line) (rest : List Char) :
    splitLines (line ++ '\n' :: rest) = line :: splitLines rest := by
  induction line with
  | nil => rfl
  | cons c line ih =>
    have hc : c ≠ '\n' := fun heq => h (heq ▸ List.mem_cons_self)
    have hline : '\n' ∉ line := fun hmem => h (List.mem_cons_of_mem c hmem)
    rw [List.cons_append, splitLines, if_neg hc, ih hline]

/-- Lines that each end as lines do are the lines of the whole. -/
lemma lines_join {ls : List String} (h : ∀ line ∈ ls, IsLine line) :
    lines (String.join (ls.map (· ++ "\n"))) = ls := by
  induction ls with
  | nil => rfl
  | cons line ls ih =>
    obtain ⟨hline, hls⟩ := List.forall_mem_cons.mp h
    have htext : (String.join ((line :: ls).map (· ++ "\n"))).toList =
        line.toList ++ '\n' :: (String.join (ls.map (· ++ "\n"))).toList := by
      simp
    rw [lines, htext, splitLines_append hline, List.map_cons, String.ofList_toList]
    exact congrArg _ (ih hls)

end BlockLang.Text
