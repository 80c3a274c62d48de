import BlockLang.Program.Parser
import Mathlib.Tactic.Common

/-!
# The grammar

The grammar of programs, as the trees of its derivations.  There is one type for each nonterminal
and one constructor for each alternative, and the leaves are tokens of the kinds that the
alternative asks for:

    statements := { statement }
    statement  := 'print' expr ';' | 'var' NAME [ NAME ] '=' expr ';' | 'var' NAME [ NAME ] ';'
                | 'const' NAME [ NAME ] '=' literal ';' | NAME '=' expr ';'
                | 'if' expr block [ 'else' block ] | 'while' expr block
                | 'break' ';' | 'continue' ';' | expr ';'
    block      := '{' statements '}'
    expr       := orterm  { '||' orterm }
    orterm     := andterm { '&&' andterm }
    andterm    := relterm { ('==' | '!=' | '<' | '<=' | '>' | '>=') relterm }
    relterm    := addterm { ('+' | '-') addterm }
    addterm    := factor  { ('*' | '/') factor }
    factor     := ('+' | '-' | '!') factor | primary
    primary    := literal | NAME | '(' expr ')' | block

The literal of a constant and the target of an assignment may stand in parentheses, which is what
`Wrapped` is for.  The five tiers of operators are one family `Tier n`: a phrase of tier `n + 1` is
a phrase of tier `n` and what the operators of that tier add to it, tier `0` is a factor and tier
`5` an expression.

`tokens` is the text of a derivation and `tree` the program that it stands for.  Operators of one
tier associate to the left, parentheses leave no trace, and the line of a node is the line of its
operator, of its `=`, of its opening brace, of its keyword or of its only token.
-/

namespace BlockLang.Grammar

/-! ## Words -/

/-- A token of a given kind. -/
abbrev Word (kind : TokenKind) := { token : Token // token.kind = kind }

/-- A token that stands for a value. -/
abbrev LiteralWord := { token : Token // token.kind ∈
  [TokenKind.integer, .float, .char, .kwTrue, .kwFalse] }

/-- A word in any number of parentheses. -/
inductive Wrapped (α : Type)
  | bare (word : α)
  | parens (opening : Word .lparen) (inner : Wrapped α) (closing : Word .rparen)

/-- The operators that join phrases of tier `n` to a phrase of tier `n + 1`. -/
def operatorsAt : Nat → List BinOp
  | 0 => [.mul, .div]
  | 1 => [.add, .sub]
  | 2 => [.eq, .ne, .lt, .le, .gt, .ge]
  | 3 => [.and]
  | 4 => [.or]
  | _ => []

/-! ## Derivations -/

mutual

/-- A phrase of one of the tiers. -/
inductive Tier : Nat → Type
  | factor (factor : Factor) : Tier 0
  | tier {n : Nat} (first : Tier n) (links : Links n) : Tier (n + 1)

/-- Operators, each with the phrase to its right. -/
inductive Links : Nat → Type
  | nil {n : Nat} : Links n
  | cons {n : Nat} (op : BinOp) (atTier : op ∈ operatorsAt n) (sign : Word op.token)
      (right : Tier n) (rest : Links n) : Links n

inductive Factor : Type
  | signed (op : UnaryOp) (sign : Word op.token) (operand : Factor)
  | primary (primary : Primary)

inductive Primary : Type
  | literal (word : LiteralWord)
  | name (word : Word .name)
  | parens (opening : Word .lparen) (inner : Tier 5) (closing : Word .rparen)
  | block (block : Block)

inductive Block : Type
  | braces (opening : Word .lbrace) (body : Statements) (closing : Word .rbrace)

inductive Statements : Type
  | nil
  | cons (first : Statement) (rest : Statements)

inductive Statement : Type
  | print (keyword : Word .kwPrint) (value : Tier 5) (semi : Word .semi)
  | varDef (keyword : Word .kwVar) (name : Word .name) (ty : Option (Word .name))
      (sign : Word .assign) (value : Tier 5) (semi : Word .semi)
  | varDecl (keyword : Word .kwVar) (name : Word .name) (ty : Option (Word .name))
      (semi : Word .semi)
  | constDef (keyword : Word .kwConst) (name : Word .name) (ty : Option (Word .name))
      (sign : Word .assign) (value : Wrapped LiteralWord) (semi : Word .semi)
  | assign (target : Wrapped (Word .name)) (sign : Word .assign) (value : Tier 5)
      (semi : Word .semi)
  | ifThen (keyword : Word .kwIf) (test : Tier 5) (thenBlock : Block)
  | ifElse (keyword : Word .kwIf) (test : Tier 5) (thenBlock : Block) (otherwise : Word .kwElse)
      (elseBlock : Block)
  | whileLoop (keyword : Word .kwWhile) (test : Tier 5) (body : Block)
  | breakLoop (keyword : Word .kwBreak) (semi : Word .semi)
  | continueLoop (keyword : Word .kwContinue) (semi : Word .semi)
  | expr (value : Tier 5) (semi : Word .semi)

end

/-! ## The text of a derivation -/

/-- The words that may be there or not. -/
def optionalTokens {kind : TokenKind} (word : Option (Word kind)) : List Token :=
  (word.map (·.1)).toList

def Wrapped.tokens {α : Type} (text : α → Token) : Wrapped α → List Token
  | .bare word => [text word]
  | .parens opening inner closing => opening.1 :: (inner.tokens text ++ [closing.1])

mutual

def Tier.tokens : {n : Nat} → Tier n → List Token
  | _, .factor factor => factor.tokens
  | _, .tier first links => first.tokens ++ links.tokens

def Links.tokens : {n : Nat} → Links n → List Token
  | _, .nil => []
  | _, .cons _ _ sign right rest => sign.1 :: (right.tokens ++ rest.tokens)

def Factor.tokens : Factor → List Token
  | .signed _ sign operand => sign.1 :: operand.tokens
  | .primary primary => primary.tokens

def Primary.tokens : Primary → List Token
  | .literal word => [word.1]
  | .name word => [word.1]
  | .parens opening inner closing => opening.1 :: (inner.tokens ++ [closing.1])
  | .block block => block.tokens

def Block.tokens : Block → List Token
  | .braces opening body closing => opening.1 :: (body.tokens ++ [closing.1])

def Statements.tokens : Statements → List Token
  | .nil => []
  | .cons first rest => first.tokens ++ rest.tokens

def Statement.tokens : Statement → List Token
  | .print keyword value semi => keyword.1 :: (value.tokens ++ [semi.1])
  | .varDef keyword name ty sign value semi =>
    keyword.1 :: name.1 :: (optionalTokens ty ++ sign.1 :: (value.tokens ++ [semi.1]))
  | .varDecl keyword name ty semi => keyword.1 :: name.1 :: (optionalTokens ty ++ [semi.1])
  | .constDef keyword name ty sign value semi =>
    keyword.1 :: name.1 :: (optionalTokens ty ++ sign.1 :: (value.tokens (·.1) ++ [semi.1]))
  | .assign target sign value semi =>
    target.tokens (·.1) ++ sign.1 :: (value.tokens ++ [semi.1])
  | .ifThen keyword test thenBlock => keyword.1 :: (test.tokens ++ thenBlock.tokens)
  | .ifElse keyword test thenBlock otherwise elseBlock =>
    keyword.1 :: (test.tokens ++ (thenBlock.tokens ++ otherwise.1 :: elseBlock.tokens))
  | .whileLoop keyword test body => keyword.1 :: (test.tokens ++ body.tokens)
  | .breakLoop keyword semi => [keyword.1, semi.1]
  | .continueLoop keyword semi => [keyword.1, semi.1]
  | .expr value semi => value.tokens ++ [semi.1]

end

/-! ## The program that a derivation stands for -/

/-- A name with its line. -/
def ident (word : Word .name) : Ident :=
  ⟨word.1.text, word.1.line⟩

/-- The value of a token that stands for one.  Numbers that are too large and characters that
cannot be read have no value; what stands here for them is of no importance. -/
def literalValue (word : LiteralWord) : Literal :=
  match word.1.kind with
  | .integer => .int (Int64.ofNat (Decimal.ofDigits word.1.text.toList)) word.1.line
  | .float => .float ((Decimal.ofText? word.1.text).getD 0) word.1.line
  | .char => .char ((CharConstant.unquote? word.1.text).getD default) word.1.line
  | kind => .bool (kind = .kwTrue) word.1.line

/-- The word inside of all parentheses. -/
def Wrapped.word {α : Type} : Wrapped α → α
  | .bare word => word
  | .parens _ inner _ => inner.word

mutual

def Tier.tree : {n : Nat} → Tier n → Expr
  | _, .factor factor => factor.tree
  | _, .tier first links => links.tree first.tree

/-- What the operators make of the phrase to their left. -/
def Links.tree : {n : Nat} → Links n → Expr → Expr
  | _, .nil, left => left
  | _, .cons op _ sign right rest, left => rest.tree (.binary op left right.tree sign.1.line)

def Factor.tree : Factor → Expr
  | .signed op sign operand => .unary op operand.tree sign.1.line
  | .primary primary => primary.tree

def Primary.tree : Primary → Expr
  | .literal word => .literal (literalValue word)
  | .name word => .name (ident word)
  | .parens _ inner _ => inner.tree
  | .block block => .block block.body block.line

/-- The statements between the braces. -/
def Block.body : Block → List Stmt
  | .braces _ body _ => body.tree

/-- The line of the opening brace. -/
def Block.line : Block → Nat
  | .braces opening _ _ => opening.1.line

def Statements.tree : Statements → List Stmt
  | .nil => []
  | .cons first rest => first.tree :: rest.tree

def Statement.tree : Statement → Stmt
  | .print keyword value _ => .print value.tree keyword.1.line
  | .varDef keyword name ty _ value _ =>
    .varDef (ident name) (ty.map ident) value.tree keyword.1.line
  | .varDecl keyword name ty _ => .varDecl (ident name) (ty.map ident) keyword.1.line
  | .constDef keyword name ty _ value _ =>
    .constDef (ident name) (ty.map ident) (.literal (literalValue value.word)) keyword.1.line
  | .assign target sign value _ => .assign (ident target.word) value.tree sign.1.line
  | .ifThen keyword test thenBlock => .ifElse test.tree thenBlock.body [] keyword.1.line
  | .ifElse keyword test thenBlock _ elseBlock =>
    .ifElse test.tree thenBlock.body elseBlock.body keyword.1.line
  | .whileLoop keyword test body => .whileLoop test.tree body.body keyword.1.line
  | .breakLoop keyword _ => .breakLoop keyword.1.line
  | .continueLoop keyword _ => .continueLoop keyword.1.line
  | .expr value _ => .expr value.tree

end

end BlockLang.Grammar
