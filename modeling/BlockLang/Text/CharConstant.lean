/-!
# Characters in a program

Between its quotes a character constant holds one character or one escape.  `CharConstant.encode`
writes a character in that form and `CharConstant.decode?` reads every form that the language has.
-/

namespace BlockLang.CharConstant

/-- The value of a hexadecimal digit in either case. -/
def hexDigit? (c : Char) : Option Nat :=
  if c.isDigit then some (c.toNat - '0'.toNat)
  else if 'a' ≤ c ∧ c ≤ 'f' then some (c.toNat - 'a'.toNat + 10)
  else if 'A' ≤ c ∧ c ≤ 'F' then some (c.toNat - 'A'.toNat + 10)
  else none

/-- The character that an escape stands for, behind its backslash. -/
def ofEscape? : List Char → Option Char
  | ['n'] => some '\n'
  | ['t'] => some '\t'
  | ['r'] => some '\r'
  | ['0'] => some '\x00'
  | ['\\'] => some '\\'
  | ['\''] => some '\''
  | ['x', a] => (hexDigit? a).map Char.ofNat
  | ['x', a, b] => do
    let high ← hexDigit? a
    let low ← hexDigit? b
    return Char.ofNat (16 * high + low)
  | _ => none

/-- The character that the body of a constant stands for. -/
def decode? : List Char → Option Char
  | '\\' :: escape => ofEscape? escape
  | [c] => some c
  | _ => none

/-- A hexadecimal digit in lower case. -/
def hexDigit (n : Nat) : Char :=
  if n < 10 then Char.ofNat ('0'.toNat + n) else Char.ofNat ('a'.toNat + n - 10)

/-- The body of the constant for a character.  Control characters, quotes and backslashes are
escaped, everything else stands for itself. -/
def encode (c : Char) : List Char :=
  if c = '\n' then ['\\', 'n']
  else if c = '\t' then ['\\', 't']
  else if c = '\r' then ['\\', 'r']
  else if c = '\x00' then ['\\', '0']
  else if c = '\\' then ['\\', '\\']
  else if c = '\'' then ['\\', '\'']
  else if c.toNat < 0x20 ∨ c.toNat = 0x7f then
    ['\\', 'x', hexDigit (c.toNat / 16), hexDigit (c.toNat % 16)]
  else [c]

/-- The constant for a character, quotes included. -/
def quote (c : Char) : String :=
  String.ofList ('\'' :: encode c ++ ['\''])

/-- The character that a constant stands for, quotes included. -/
def unquote? (text : String) : Option Char :=
  match text.toList with
  | '\'' :: rest => if rest.getLast? = some '\'' then decode? rest.dropLast else none
  | _ => none

end BlockLang.CharConstant
