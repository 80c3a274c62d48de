import BlockLang.Proofs.Layout.Scanning
import BlockLang.Proofs.Token.Seams
import Mathlib

/-!
# Tokens with spaces between them

A single space is enough between any two tokens.  The texts of the tokens of a source, joined by
spaces, are read as the same tokens again, all of them on the first line
(`Source.tokens_spaced`).
-/

namespace BlockLang

/-- The texts of tokens in one line, with a space between each two of them. -/
def Token.spaced (ts : List Token) : String :=
  " ".intercalate (ts.map Token.text)

lemma Token.spaced_cons_cons (first second : Token) (rest : List Token) :
    (spaced (first :: second :: rest)).toList =
      first.text.toList ++ ' ' :: (spaced (second :: rest)).toList := by
  simp [spaced]

lemma Token.spaced_singleton (token : Token) :
    (spaced [token]).toList = token.text.toList := by
  simp [spaced]

namespace Cursor

/-- Texts of tokens in one line are read one after the other. -/
lemma lexes_spaced : ∀ {ts : List Token}, (∀ token ∈ ts, token.kind.Matches token.text.toList) →
    Lexes ⟨(Token.spaced ts).toList, 1⟩ (ts.map (Token.reline fun _ => 1)) 1
  | [], _ => .finish rfl
  | [token], h => by
    have htoken := h token (List.mem_singleton_self token)
    have hread := htoken.reads .nil 1
    rw [List.append_nil, ← Token.spaced_singleton] at hread
    exact .token hread htoken.ne_endOfInput (.finish rfl)
  | first :: second :: rest, h => by
    obtain ⟨hfirst, hrest⟩ := List.forall_mem_cons.mp h
    have hspace : ' ' ∈ [' ', '\n', ';', ')'] := List.mem_cons_self
    have hread := hfirst.reads (.cons (Token.spaced (second :: rest)).toList hspace) 1
    rw [← Token.spaced_cons_cons] at hread
    have hbehind := (lexes_spaced hrest).congr (Piece.Scans.readToken_space _ 1).symm
    exact .token hread hfirst.ne_endOfInput hbehind

end Cursor

namespace Source

variable {source : String}

/-- The texts of the tokens of a source, joined by single spaces, are read as the same tokens: the
kinds and the texts are the same, and all lines are the first one. -/
theorem tokens_spaced {ts : List Token} (h : tokens source = .ok ts) :
    tokens (Token.spaced (ts.filter (·.kind ≠ .endOfInput))) =
      .ok (ts.map (Token.reline fun _ => 1)) := by
  obtain ⟨inner, last, rfl, hlexes⟩ := exists_lexes_of_tokens h
  have hmatches := hlexes.matches_of_mem
  have hfilter : (inner ++ [Token.endOfInput last]).filter (·.kind ≠ .endOfInput) = inner := by
    have hall : ∀ token ∈ inner, decide (token.kind ≠ .endOfInput) = true := fun token hmem =>
      decide_eq_true (hmatches token hmem).ne_endOfInput
    rw [List.filter_append, List.filter_eq_self.mpr hall]
    exact List.append_nil inner
  rw [hfilter, List.map_append]
  exact tokens_eq_iff.mpr (Cursor.lexes_spaced hmatches)

/-- Marks that would open a comment if they met, a quoted quote and a number that ends in a
point. -/
theorem tokens_spaced_marks :
    tokens "a/ /**/\n*'\\''1." = .ok [⟨.name, "a", 1⟩, ⟨.divide, "/", 1⟩, ⟨.times, "*", 2⟩,
      ⟨.char, "'\\''", 2⟩, ⟨.float, "1.", 2⟩, .endOfInput 2] ∧
    tokens "a / * '\\'' 1." = .ok [⟨.name, "a", 1⟩, ⟨.divide, "/", 1⟩, ⟨.times, "*", 1⟩,
      ⟨.char, "'\\''", 1⟩, ⟨.float, "1.", 1⟩, .endOfInput 1] := by
  have htokens : tokens "a/ /**/\n*'\\''1." = .ok [⟨.name, "a", 1⟩, ⟨.divide, "/", 1⟩,
      ⟨.times, "*", 2⟩, ⟨.char, "'\\''", 2⟩, ⟨.float, "1.", 2⟩, .endOfInput 2] := by cbv
  have hspaced : Token.spaced [⟨.name, "a", 1⟩, ⟨.divide, "/", 1⟩, ⟨.times, "*", 2⟩,
      ⟨.char, "'\\''", 2⟩, ⟨.float, "1.", 2⟩] = "a / * '\\'' 1." := by decide
  exact ⟨htokens, hspaced ▸ tokens_spaced htokens⟩

end Source

end BlockLang
