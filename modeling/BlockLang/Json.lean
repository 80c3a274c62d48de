import BlockLang.Decimal.Text
import BlockLang.Text.Quoted

/-!
# Documents

A value of `Json` is a document in the JSON data format.  `Json.compact` writes it without any
blanks and `Json.pretty` with one item per line, two spaces per level.
-/

namespace BlockLang

/-- A JSON document.  The fields of an object keep their order. -/
inductive Json
  | null
  | bool (value : Bool)
  | int (value : Int)
  | float (value : Float)
  | text (value : String)
  | array (items : List Json)
  | object (fields : List (String × Json))
  deriving Inhabited

namespace Json

/-- A natural number. -/
def nat (n : Nat) : Json :=
  int n

/-- A value that may be missing. -/
def option {α : Type} (f : α → Json) : Option α → Json
  | some a => f a
  | none => null

/-! ## Texts -/

/-- A character as it stands in a text.  Quotes, backslashes and the controls of ASCII below the
space are escaped, everything else stands for itself. -/
def escaped (c : Char) : String :=
  if c = '"' then "\\\""
  else if c = '\\' then "\\\\"
  else if c = '\x08' then "\\b"
  else if c = '\x0c' then "\\f"
  else if c = '\n' then "\\n"
  else if c = '\r' then "\\r"
  else if c = '\t' then "\\t"
  else if c.toNat < 0x10 then "\\u000" ++ Text.hex c.toNat
  else if c.toNat < 0x20 then "\\u00" ++ Text.hex c.toNat
  else String.singleton c

/-- A text in double quotes. -/
def quoted (text : String) : String :=
  "\"" ++ String.join (text.toList.map escaped) ++ "\""

/-! ## Documents -/

/-- A document that has no parts, or the word `null` for a float that is not finite. -/
def leaf : Json → String
  | null => "null"
  | bool value => if value then "true" else "false"
  | int value => toString value
  | float value => (Decimal.documented? value).getD "null"
  | text value => quoted value
  | array _ => "[]"
  | object _ => "\x7b\x7d"

mutual

/-- A document without blanks. -/
def compact : Json → String
  | array items => "[" ++ compactItems items ++ "]"
  | object fields => "\x7b" ++ compactFields fields ++ "\x7d"
  | other => other.leaf

/-- The items of an array, separated by commas. -/
def compactItems : List Json → String
  | [] => ""
  | [item] => item.compact
  | item :: rest => item.compact ++ "," ++ compactItems rest

/-- The fields of an object, separated by commas. -/
def compactFields : List (String × Json) → String
  | [] => ""
  | [(name, value)] => quoted name ++ ":" ++ value.compact
  | (name, value) :: rest => quoted name ++ ":" ++ value.compact ++ "," ++ compactFields rest

end

/-- The beginning of a line at a level. -/
def newline (level : Nat) : String :=
  String.ofList ('\n' :: List.replicate (2 * level) ' ')

mutual

/-- A document that starts at a level, with one item per line.  Empty arrays and objects stay on
their line. -/
def prettyAt (level : Nat) : Json → String
  | array (item :: rest) =>
    "[" ++ newline (level + 1) ++ item.prettyAt (level + 1) ++ prettyItems (level + 1) rest ++
      newline level ++ "]"
  | object ((name, value) :: rest) =>
    "\x7b" ++ newline (level + 1) ++ quoted name ++ ": " ++ value.prettyAt (level + 1) ++
      prettyFields (level + 1) rest ++ newline level ++ "\x7d"
  | other => other.leaf

/-- The items behind the first one of an array. -/
def prettyItems (level : Nat) : List Json → String
  | [] => ""
  | item :: rest => "," ++ newline level ++ item.prettyAt level ++ prettyItems level rest

/-- The fields behind the first one of an object. -/
def prettyFields (level : Nat) : List (String × Json) → String
  | [] => ""
  | (name, value) :: rest =>
    "," ++ newline level ++ quoted name ++ ": " ++ value.prettyAt level ++ prettyFields level rest

end

/-- A document with one item per line and two spaces per level. -/
def pretty (document : Json) : String :=
  document.prettyAt 0

end Json

end BlockLang
