/-!
# Tokens

The words that a program is written in.  A `Token` is a kind, the text that was read, and the
line on which it starts.  The kinds fall into three groups: those with one fixed spelling
(keywords, operators and brackets, `TokenKind.spelling?`), those whose text carries information
(names and literals), and the mark for the end of the input.

The tables `ofKeyword?`, `ofPair?` and `ofChar?` read the fixed spellings back; the lemmas at the
end say that they do.
-/

namespace BlockLang

/-- The kinds of token. -/
inductive TokenKind
  | kwConst | kwVar | kwPrint | kwIf | kwElse | kwWhile | kwBreak | kwContinue | kwTrue | kwFalse
  | name | integer | float | char
  | plus | minus | times | divide
  | lt | le | gt | ge | eq | ne
  | andAnd | orOr | bang | assign
  | semi | lparen | rparen | lbrace | rbrace
  | endOfInput
  deriving DecidableEq, Repr, Inhabited

namespace TokenKind

/-- The keywords, in the order in which the language lists them. -/
def keywords : List TokenKind :=
  [kwConst, kwVar, kwPrint, kwIf, kwElse, kwWhile, kwBreak, kwContinue, kwTrue, kwFalse]

/-- Keywords look like names, and are never read as names. -/
def isKeyword (kind : TokenKind) : Bool :=
  keywords.contains kind

/-- The text of a kind that is always written the same way. -/
def spelling? : TokenKind → Option String
  | kwConst => some "const"
  | kwVar => some "var"
  | kwPrint => some "print"
  | kwIf => some "if"
  | kwElse => some "else"
  | kwWhile => some "while"
  | kwBreak => some "break"
  | kwContinue => some "continue"
  | kwTrue => some "true"
  | kwFalse => some "false"
  | plus => some "+"
  | minus => some "-"
  | times => some "*"
  | divide => some "/"
  | lt => some "<"
  | le => some "<="
  | gt => some ">"
  | ge => some ">="
  | eq => some "=="
  | ne => some "!="
  | andAnd => some "&&"
  | orOr => some "||"
  | bang => some "!"
  | assign => some "="
  | semi => some ";"
  | lparen => some "("
  | rparen => some ")"
  | lbrace => some "\x7b"
  | rbrace => some "\x7d"
  | name | integer | float | char | endOfInput => none

/-- How a diagnostic names a kind that it expected: a fixed spelling in quotes, or the class. -/
def describe (kind : TokenKind) : String :=
  match kind.spelling? with
  | some text => "'" ++ text ++ "'"
  | none =>
    match kind with
    | name => "NAME"
    | integer => "INTEGER"
    | float => "FLOAT"
    | char => "CHAR"
    | _ => "end of input"

/-- The name of a kind in a token listing. -/
def label : TokenKind → String
  | kwConst => "Const"
  | kwVar => "Var"
  | kwPrint => "Print"
  | kwIf => "If"
  | kwElse => "Else"
  | kwWhile => "While"
  | kwBreak => "Break"
  | kwContinue => "Continue"
  | kwTrue => "True"
  | kwFalse => "False"
  | name => "Name"
  | integer => "Integer"
  | float => "Float"
  | char => "Char"
  | plus => "Plus"
  | minus => "Minus"
  | times => "Times"
  | divide => "Divide"
  | lt => "Lt"
  | le => "Le"
  | gt => "Gt"
  | ge => "Ge"
  | eq => "Eq"
  | ne => "Ne"
  | andAnd => "LAnd"
  | orOr => "LOr"
  | bang => "LNot"
  | assign => "Assign"
  | semi => "Semi"
  | lparen => "LParen"
  | rparen => "RParen"
  | lbrace => "LBrace"
  | rbrace => "RBrace"
  | endOfInput => "Eof"

/-! ## Reading the fixed spellings -/

/-- The keyword spelled `text`, if there is one. -/
def ofKeyword? (text : String) : Option TokenKind :=
  keywords.find? fun kind => kind.spelling? == some text

/-- The operator written with the two characters `a` and `b`. -/
def ofPair? (a b : Char) : Option TokenKind :=
  match a, b with
  | '=', '=' => some eq
  | '!', '=' => some ne
  | '<', '=' => some le
  | '>', '=' => some ge
  | '&', '&' => some andAnd
  | '|', '|' => some orOr
  | _, _ => none

/-- The operator or bracket written with the one character `c`. -/
def ofChar? (c : Char) : Option TokenKind :=
  match c with
  | '+' => some plus
  | '-' => some minus
  | '*' => some times
  | '/' => some divide
  | '<' => some lt
  | '>' => some gt
  | '=' => some assign
  | '!' => some bang
  | ';' => some semi
  | '(' => some lparen
  | ')' => some rparen
  | '\x7b' => some lbrace
  | '\x7d' => some rbrace
  | _ => none

theorem spelling?_of_ofKeyword? {text : String} {kind : TokenKind}
    (h : ofKeyword? text = some kind) : kind.spelling? = some text := by
  simpa using List.find?_some h

theorem isKeyword_of_ofKeyword? {text : String} {kind : TokenKind}
    (h : ofKeyword? text = some kind) : kind.isKeyword = true := by
  simpa [isKeyword] using List.mem_of_find?_eq_some h

theorem spelling?_of_ofPair? {a b : Char} {kind : TokenKind} (h : ofPair? a b = some kind) :
    kind.spelling? = some (String.ofList [a, b]) := by
  unfold ofPair? at h
  split at h <;> cases h <;> rfl

theorem spelling?_of_ofChar? {c : Char} {kind : TokenKind} (h : ofChar? c = some kind) :
    kind.spelling? = some (String.singleton c) := by
  unfold ofChar? at h
  split at h <;> cases h <;> rfl

end TokenKind

/-- A word of the input. -/
structure Token where
  kind : TokenKind
  /-- The text as written, quotes and escapes included. -/
  text : String
  /-- The line on which the text starts, counted from 1. -/
  line : Nat
  deriving DecidableEq, Repr, Inhabited

namespace Token

/-- The token after the last one, on the line where the input ends. -/
def endOfInput (line : Nat) : Token :=
  ⟨.endOfInput, "", line⟩

/-- How a diagnostic names a token that it found. -/
def describe (token : Token) : String :=
  if token.kind = .endOfInput then "end of input" else token.text

end Token

end BlockLang
