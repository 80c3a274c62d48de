import BlockLang.Attempt
import BlockLang.Decimal.Reading
import BlockLang.Program.Basic
import BlockLang.Text.CharConstant
import BlockLang.Token.Lexer

/-!
# From tokens to programs

A `Parser` holds the token it stands on and the items that a lexer has yet to give.  The reading
functions look at that one token, go on past it with `Parser.advance`, and never go back; when
reading fails, the parser stays on the token where it failed.

The grammar has one function for each kind of phrase: `statements`, `statement`, `block`,
`expression`, `operators`, `unary` and `primary`.  They call each other at most eight levels deep
for each token that they pass, and each level takes one from the number that bounds the depth, so
that the number `Parser.depth` is always enough and `Parser.program` comes to an end.
-/

namespace BlockLang

/-- A reader of phrases. -/
structure Parser where
  current : Token
  pending : List (Except Fault Token)
  deriving Inhabited

/-- An activity of a parser. -/
abbrev Reading := Attempt Parser Fault

namespace Parser

/-- A parser on the first token that a lexer gives. -/
def ofLexer (lexer : Lexer) : Except Fault Parser :=
  match lexer.items with
  | [] => .ok ⟨.endOfInput 1, []⟩
  | .ok token :: pending => .ok ⟨token, pending⟩
  | .error fault :: _ => .error fault

/-! ## Tokens -/

/-- The kind of the current token. -/
@[inline] def kind : Reading TokenKind := fun p =>
  (.done p.current.kind, p)

/-- Go past the current token and give it.  The end of the input is never passed, and behind the
last item it comes again, on the line of the token before it. -/
def advance : Reading Token := fun p =>
  if p.current.kind = .endOfInput then (.done p.current, p)
  else
    match p.pending with
    | [] => (.done p.current, ⟨.endOfInput p.current.line, []⟩)
    | .ok next :: pending => (.done p.current, ⟨next, pending⟩)
    | .error fault :: pending => (.failed fault, ⟨p.current, pending⟩)

/-- Refuse the current token. -/
def unexpected {α : Type} (expected : String) : Reading α := fun p =>
  (.failed (.unexpectedToken expected p.current.describe p.current.line), p)

/-- Go past a token of a given kind. -/
def expect (wanted : TokenKind) : Reading Token := do
  if (← kind) = wanted then advance else unexpected wanted.describe

/-- A name. -/
def identifier : Reading Ident := do
  let token ← expect .name
  return ⟨token.text, token.line⟩

/-- A name, if there is one. -/
def identifier? : Reading (Option Ident) := do
  if (← kind) = .name then
    let ident ← identifier
    return some ident
  else
    return none

/-- The first number that is too large for an integer: `2 ^ 63`. -/
def intLimit : Nat := 9223372036854775808

/-- The value of a literal token.  Integers have no sign of their own and stop below a limit. -/
def literalOf (token : Token) : Except Fault Literal :=
  match token.kind with
  | .integer =>
    let value := Decimal.ofDigits token.text.toList
    if value < intLimit then .ok (.int (Int64.ofNat value) token.line)
    else .error (.invalidLiteral "integer" token.text token.line)
  | .float =>
    match Decimal.ofText? token.text with
    | some value => .ok (.float value token.line)
    | none => .error (.invalidLiteral "float" token.text token.line)
  | .char =>
    match CharConstant.unquote? token.text with
    | some value => .ok (.char value token.line)
    | none => .error (.invalidLiteral "character" token.text token.line)
  | _ => .ok (.bool (token.kind = .kwTrue) token.line)

/-- A literal.  The token behind it is looked at before its own value. -/
def literal : Reading Expr := do
  let token ← advance
  let value ← Attempt.ofExcept (literalOf token)
  return .literal value

/-! ## Phrases -/

mutual

/-- Statements up to the end of the input, or in a block up to its closing brace. -/
def statements : Nat → Bool → Reading (List Stmt)
  | 0, _ => Attempt.stop
  | depth + 1, inBlock => do
    let next ← kind
    if next = .endOfInput ∨ (inBlock ∧ next = .rbrace) then
      return []
    else
      let first ← statement depth
      let rest ← statements depth inBlock
      return first :: rest

/-- Statements in braces. -/
def block : Nat → Reading (List Stmt)
  | 0 => Attempt.stop
  | depth + 1 => do
    let _ ← expect .lbrace
    let body ← statements depth true
    let _ ← expect .rbrace
    return body

/-- One statement.  Whether an expression is the target of an assignment shows only behind it. -/
def statement : Nat → Reading Stmt
  | 0 => Attempt.stop
  | depth + 1 => do
    match ← kind with
    | .kwPrint =>
      let start ← advance
      let value ← expression depth 0
      let _ ← expect .semi
      return .print value start.line
    | .kwVar =>
      let start ← advance
      let name ← identifier
      let ty ← identifier?
      if (← kind) = .assign then
        let _ ← advance
        let value ← expression depth 0
        let _ ← expect .semi
        return .varDef name ty value start.line
      else if ty.isNone then
        Attempt.fail (.missingTypeOrValue name.name start.line)
      else
        let _ ← expect .semi
        return .varDecl name ty start.line
    | .kwConst =>
      let start ← advance
      let name ← identifier
      let ty ← identifier?
      let _ ← expect .assign
      let value ← expression depth 0
      if value.isLiteral then
        let _ ← expect .semi
        return .constDef name ty value start.line
      else
        Attempt.fail (.constNotLiteral name.name start.line)
    | .kwIf =>
      let start ← advance
      let test ← expression depth 0
      let thenBlock ← block depth
      if (← kind) = .kwElse then
        let _ ← advance
        let elseBlock ← block depth
        return .ifElse test thenBlock elseBlock start.line
      else
        return .ifElse test thenBlock [] start.line
    | .kwWhile =>
      let start ← advance
      let test ← expression depth 0
      let body ← block depth
      return .whileLoop test body start.line
    | .kwBreak =>
      let start ← advance
      let _ ← expect .semi
      return .breakLoop start.line
    | .kwContinue =>
      let start ← advance
      let _ ← expect .semi
      return .continueLoop start.line
    | _ =>
      let first ← expression depth 0
      if (← kind) = .assign then
        match first with
        | .name target =>
          let sign ← advance
          let value ← expression depth 0
          let _ ← expect .semi
          return .assign target value sign.line
        | _ => unexpected TokenKind.semi.describe
      else
        let _ ← expect .semi
        return .expr first

/-- An expression whose operators bind at least as tightly as `least`. -/
def expression : Nat → Nat → Reading Expr
  | 0, _ => Attempt.stop
  | depth + 1, least => do
    let left ← unary depth
    operators depth least left

/-- The operators behind a left operand, as far as they bind at least as tightly as `least`.  What
is to the right of an operator binds more tightly than it, so that operators of one precedence
associate to the left. -/
def operators : Nat → Nat → Expr → Reading Expr
  | 0, _, _ => Attempt.stop
  | depth + 1, least, left => do
    match BinOp.ofToken? (← kind) with
    | none => return left
    | some op =>
      if op.precedence < least then
        return left
      else
        let sign ← advance
        let right ← expression depth (op.precedence + 1)
        operators depth least (.binary op left right sign.line)

/-- Operators in front of an operand. -/
def unary : Nat → Reading Expr
  | 0 => Attempt.stop
  | depth + 1 => do
    match UnaryOp.ofToken? (← kind) with
    | some op =>
      let sign ← advance
      let operand ← unary depth
      return .unary op operand sign.line
    | none => primary depth

/-- A literal, a name, an expression in parentheses or a block that stands for a value. -/
def primary : Nat → Reading Expr
  | 0 => Attempt.stop
  | depth + 1 => do
    match ← kind with
    | .integer | .float | .char | .kwTrue | .kwFalse => literal
    | .name =>
      let ident ← identifier
      return .name ident
    | .lparen =>
      let _ ← advance
      let inner ← expression depth 0
      let _ ← expect .rparen
      return inner
    | .lbrace =>
      let start ← Attempt.get
      let body ← block depth
      return .block body start.current.line
    | _ => unexpected "expression"

end

/-- A depth that no phrase in what is left exceeds. -/
def depth (p : Parser) : Nat :=
  8 * (p.pending.length + 2)

/-- A program: all statements up to the end of the input. -/
def program : Reading Program := do
  let p ← Attempt.get
  let body ← statements p.depth false
  return ⟨body⟩

end Parser

end BlockLang
