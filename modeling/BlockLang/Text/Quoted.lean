import BlockLang.Text.GraphemeExtend
import BlockLang.Text.Unprintable

/-!
# Quoted text in diagnostics

A diagnostic shows a character between single quotes and a text between double quotes.  Inside
them a backslash, the surrounding quote and the characters that would not be seen are written as
escapes, so that the quoted form is one visible line.
-/

namespace BlockLang.Text

/-- The two half-width voicing marks.  They extend a grapheme, and yet have a width of their own and
are seen without a character before them. -/
def isVoicingMark (c : Char) : Bool :=
  c = '\uff9e' || c = '\uff9f'

/-- Whether a character is seen as itself wherever it stands. -/
def isVisible (c : Char) : Bool :=
  !isUnprintable c && (!extendsGrapheme c || isVoicingMark c)

/-- A code point in lower-case hexadecimal, without leading zeros. -/
def hex (n : Nat) : String :=
  String.ofList (Nat.toDigits 16 n)

/-- A character as it stands between two `quote` characters. -/
def escaped (quote c : Char) : String :=
  if c = '\x00' then "\\0"
  else if c = '\t' then "\\t"
  else if c = '\r' then "\\r"
  else if c = '\n' then "\\n"
  else if c = '\\' || c = quote then String.ofList ['\\', c]
  else if isVisible c then String.singleton c
  else "\\u\x7b" ++ hex c.toNat ++ "\x7d"

/-- A character in single quotes. -/
def quotedChar (c : Char) : String :=
  "'" ++ escaped '\'' c ++ "'"

/-- A text in double quotes. -/
def quoted (text : String) : String :=
  "\"" ++ String.join (text.toList.map (escaped '"')) ++ "\""

end BlockLang.Text
