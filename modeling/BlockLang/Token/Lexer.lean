import BlockLang.Fault.Basic
import BlockLang.Text.Blank
import BlockLang.Token.Basic

/-!
# Reading tokens from characters

A `Cursor` is what is left of the input and the line it stands on.  `Cursor.skipTrivia` passes
blanks and comments, `Cursor.readToken` reads one token behind them, and `Cursor.drain` reads
tokens up to the end of the input or the first fault.

A `Lexer` is a cursor over a fixed source that also remembers whether it is done: it is done
once it has given the end of the input or a fault, and can be reset to the beginning.
-/

namespace BlockLang

/-- A place in the input. -/
structure Cursor where
  rest : List Char
  line : Nat
  deriving DecidableEq, Repr, Inhabited

namespace Cursor

/-- The beginning of an input. -/
def ofString (source : String) : Cursor :=
  ⟨source.toList, 1⟩

/-! ## Blanks and comments -/

/-- What is being passed over. -/
inductive Trivia
  /-- Blanks, one at a time. -/
  | blanks
  /-- A comment that ends before the next line. -/
  | lineComment
  /-- A comment that was opened on the given line and ends at the next closing mark. -/
  | blockComment (opened : Nat)
  deriving DecidableEq, Repr

/-- The line after a character of the line `line`. -/
def lineAfter (c : Char) (line : Nat) : Nat :=
  if c = '\n' then line + 1 else line

/-- Pass over trivia from a line on.  The answer is the place of the first character of a token,
or of the end of the input, with the opening line of a block comment that did not end. -/
def skip : Trivia → Nat → List Char → Option Nat × Cursor
  | .blanks, line, '/' :: '/' :: rest => skip .lineComment line rest
  | .blanks, line, '/' :: '*' :: rest => skip (.blockComment line) line rest
  | .blanks, line, c :: rest =>
    if Text.isBlank c then skip .blanks (lineAfter c line) rest else (none, ⟨c :: rest, line⟩)
  | .lineComment, line, c :: rest =>
    if c = '\n' then skip .blanks (line + 1) rest else skip .lineComment line rest
  | .blockComment _, line, '*' :: '/' :: rest => skip .blanks line rest
  | .blockComment opened, line, c :: rest => skip (.blockComment opened) (lineAfter c line) rest
  | .blockComment opened, line, [] => (some opened, ⟨[], line⟩)
  | _, line, [] => (none, ⟨[], line⟩)

/-- Pass over blanks and comments. -/
def skipTrivia (cursor : Cursor) : Option Nat × Cursor :=
  skip .blanks cursor.line cursor.rest

/-! ## One token -/

/-- The letters and the underscore, which start names and keywords. -/
def isWordStart (c : Char) : Bool :=
  c.isAlpha || c = '_'

/-- The characters that names and keywords are made of. -/
def isWordChar (c : Char) : Bool :=
  c.isAlphanum || c = '_'

/-- The digits of base sixteen, in either case. -/
def isHexDigit (c : Char) : Bool :=
  c.isDigit || ('a' ≤ c && c ≤ 'f') || ('A' ≤ c && c ≤ 'F')

/-- A name or a keyword: the longest run of word characters. -/
def readWord (line : Nat) (input : List Char) : Token × Cursor :=
  let text := String.ofList (input.takeWhile isWordChar)
  (⟨(TokenKind.ofKeyword? text).getD .name, text, line⟩, ⟨input.dropWhile isWordChar, line⟩)

/-- A number: digits, and for a float a point with the digits that follow it, if any. -/
def readNumber (line : Nat) (input : List Char) : Token × Cursor :=
  let digits := input.takeWhile Char.isDigit
  match input.dropWhile Char.isDigit with
  | '.' :: rest =>
    (⟨.float, String.ofList (digits ++ '.' :: rest.takeWhile Char.isDigit), line⟩,
      ⟨rest.dropWhile Char.isDigit, line⟩)
  | rest => (⟨.integer, String.ofList digits, line⟩, ⟨rest, line⟩)

/-- The closing quote of a character constant, behind its body. -/
def closeQuote (line : Nat) (body : List Char) : List Char → Except Fault Token × Cursor
  | '\'' :: rest =>
    (.ok ⟨.char, String.ofList ('\'' :: body ++ ['\'']), line⟩, ⟨rest, line⟩)
  | rest => (.error (.unterminatedChar line), ⟨rest, line⟩)

/-- A character constant, behind its opening quote: one character that is neither a quote nor a
line end, or a backslash and what it escapes, of which `x` takes up to two hexadecimal digits. -/
def readQuoted (line : Nat) : List Char → Except Fault Token × Cursor
  | '\\' :: 'x' :: rest =>
    let digits := (rest.take 2).takeWhile isHexDigit
    closeQuote line ('\\' :: 'x' :: digits) (rest.drop digits.length)
  | '\\' :: '\n' :: rest => (.error (.unterminatedChar line), ⟨rest, line + 1⟩)
  | '\\' :: c :: rest => closeQuote line ['\\', c] rest
  | ['\\'] => (.error (.unterminatedChar line), ⟨[], line⟩)
  | '\'' :: rest => (.error (.unterminatedChar line), ⟨'\'' :: rest, line⟩)
  | '\n' :: rest => (.error (.unterminatedChar line), ⟨'\n' :: rest, line⟩)
  | c :: rest => closeQuote line [c] rest
  | [] => (.error (.unterminatedChar line), ⟨[], line⟩)

/-- A token that starts with the character `c` and is no operator of two characters.  A
character that starts no token is reported and not passed. -/
def readFrom (line : Nat) (c : Char) (rest : List Char) : Except Fault Token × Cursor :=
  if c.isDigit then
    let (token, next) := readNumber line (c :: rest)
    (.ok token, next)
  else if isWordStart c then
    let (token, next) := readWord line (c :: rest)
    (.ok token, next)
  else if c = '\'' then readQuoted line rest
  else
    match TokenKind.ofChar? c with
    | some kind => (.ok ⟨kind, String.singleton c, line⟩, ⟨rest, line⟩)
    | none => (.error (.illegalCharacter c line), ⟨c :: rest, line⟩)

/-- The token at the very beginning of an input, of which the longest operator wins. -/
def readHere (line : Nat) : List Char → Except Fault Token × Cursor
  | [] => (.ok (.endOfInput line), ⟨[], line⟩)
  | a :: b :: rest =>
    match TokenKind.ofPair? a b with
    | some kind => (.ok ⟨kind, String.ofList [a, b], line⟩, ⟨rest, line⟩)
    | none => readFrom line a (b :: rest)
  | [a] => readFrom line a []

/-- The next token, behind blanks and comments, and the place behind it. -/
def readToken (cursor : Cursor) : Except Fault Token × Cursor :=
  match cursor.skipTrivia with
  | (some opened, atEnd) => (.error (.unterminatedComment opened), atEnd)
  | (none, start) => readHere start.line start.rest

/-! ## All tokens -/

/-- What reading to the end gives: the tokens, the fault that stopped the reading, if any, and
the place reached. -/
structure Drained where
  tokens : List Token
  fault? : Option Fault
  stop : Cursor
  deriving Repr, Inhabited

/-- Read at most `steps` tokens, up to the end of the input or a fault. -/
def drainWithin : Nat → Cursor → Drained
  | 0, cursor => ⟨[], none, cursor⟩
  | steps + 1, cursor =>
    match cursor.readToken with
    | (.error fault, next) => ⟨[], some fault, next⟩
    | (.ok token, next) =>
      if token.kind = .endOfInput then ⟨[token], none, next⟩
      else
        let later := drainWithin steps next
        ⟨token :: later.tokens, later.fault?, later.stop⟩

/-- Read all tokens.  Each but the last takes a character, which bounds their number. -/
def drain (cursor : Cursor) : Drained :=
  drainWithin (cursor.rest.length + 1) cursor

end Cursor

/-- A reader of tokens over a source. -/
structure Lexer where
  source : List Char
  cursor : Cursor
  /-- Whether the end of the input or a fault has been given. -/
  finished : Bool
  deriving DecidableEq, Repr, Inhabited

namespace Lexer

/-- A lexer at the beginning of a source. -/
def ofString (source : String) : Lexer :=
  ⟨source.toList, .ofString source, false⟩

/-- Go back to the beginning of the source. -/
def reset (lexer : Lexer) : Lexer :=
  ⟨lexer.source, ⟨lexer.source, 1⟩, false⟩

/-- The token at the cursor, whether or not the lexer is finished. -/
def nextToken (lexer : Lexer) : Except Fault Token × Lexer :=
  let (result, cursor) := lexer.cursor.readToken
  (result, { lexer with cursor })

/-- Whether nothing may follow a result of reading. -/
def isLast : Except Fault Token → Bool
  | .ok token => token.kind = .endOfInput
  | .error _ => true

/-- The next item: a token, a fault, or nothing once the lexer is finished. -/
def next? (lexer : Lexer) : Option (Except Fault Token) × Lexer :=
  if lexer.finished then (none, lexer)
  else
    let (result, lexer) := lexer.nextToken
    (some result, { lexer with finished := isLast result })

/-- The items that are still to come. -/
def items (lexer : Lexer) : List (Except Fault Token) :=
  if lexer.finished then []
  else
    let read := lexer.cursor.drain
    read.tokens.map .ok ++ (read.fault?.map .error).toList

/-- The tokens that are still to come, or the fault that ends them. -/
def tokenize (lexer : Lexer) : Except Fault (List Token) × Lexer :=
  if lexer.finished then (.ok [], lexer)
  else
    let read := lexer.cursor.drain
    (match read.fault? with
      | some fault => .error fault
      | none => .ok read.tokens,
      { lexer with cursor := read.stop, finished := true })

end Lexer

end BlockLang
