import BlockLang.Decimal.Text
import BlockLang.Program.Basic
import BlockLang.Text.CharConstant

/-!
# The canonical form of a program

Every program has one canonical form: a statement per line, blocks indented by four spaces per
level, one space around binary operators, and parentheses only where precedence or left
associativity would otherwise give another tree.

The form is built as a list of `Piece`s, which are words (with the kind of token that each one is)
and the space between them.  `Program.format` writes the pieces of a program; its tokens are the
words among them.
-/

namespace BlockLang

/-- A part of a canonical form. -/
inductive Piece
  /-- A token. -/
  | word (kind : TokenKind) (text : String)
  /-- A space between two tokens of a line. -/
  | space
  /-- The end of a line. -/
  | newline
  /-- The beginning of a line inside of so many blocks. -/
  | indent (level : Nat)
  deriving DecidableEq, Repr, Inhabited

namespace Piece

/-- A token of a kind that has one spelling. -/
def mark (kind : TokenKind) : Piece :=
  word kind (kind.spelling?.getD "")

/-- The text of a piece. -/
def text : Piece → String
  | word _ text => text
  | space => " "
  | newline => "\n"
  | indent level => String.ofList (List.replicate (4 * level) ' ')

/-- The text of a list of pieces. -/
def render (pieces : List Piece) : String :=
  String.join (pieces.map text)

end Piece

/-! ## Words -/

/-- The word for a literal.  A float keeps a point, so that it is read as a float again. -/
def Literal.word : Literal → Piece
  | int value _ => .word .integer (toString value.toInt)
  | float value _ => .word .float (Decimal.plain value)
  | bool value _ => .mark (if value then .kwTrue else .kwFalse)
  | char value _ => .word .char (CharConstant.quote value)

/-- The word for a name. -/
def Ident.word (ident : Ident) : Piece :=
  .word .name ident.name

/-- A declared type behind the name that it belongs to. -/
def Ident.typeWords : Option Ident → List Piece
  | none => []
  | some ty => [.space, ty.word]

/-! ## Parentheses -/

/-- The precedence of an expression that an operator stands at the top of. -/
def Expr.precedence? : Expr → Option Nat
  | binary op _ _ _ => some op.precedence
  | _ => none

/-- Pieces in parentheses. -/
def Piece.parenthesized (pieces : List Piece) : List Piece :=
  .mark .lparen :: pieces ++ [.mark .rparen]

/-- Whether an operand behind a unary operator needs parentheses: so does every binary operator. -/
def UnaryOp.encloses (operand : Expr) : Bool :=
  operand.precedence?.isSome

/-- Whether the left operand of a binary operator needs parentheses: so does a weaker operator. -/
def BinOp.enclosesLeft (op : BinOp) (left : Expr) : Bool :=
  left.precedence?.any (· < op.precedence)

/-- Whether the right operand of a binary operator needs parentheses: so does an operator that is
weaker or equally strong, since equally strong ones associate to the left. -/
def BinOp.enclosesRight (op : BinOp) (right : Expr) : Bool :=
  right.precedence?.any (· ≤ op.precedence)

/-! ## Expressions and statements -/

mutual

/-- An expression in a line at a level. -/
def Expr.pieces (level : Nat) : Expr → List Piece
  | .literal value => [value.word]
  | .name ident => [ident.word]
  | .unary op operand _ =>
    .mark op.token ::
      if UnaryOp.encloses operand then Piece.parenthesized (operand.pieces level)
      else operand.pieces level
  | .binary op left right _ =>
    (if op.enclosesLeft left then Piece.parenthesized (left.pieces level)
      else left.pieces level) ++
    [.space, .mark op.token, .space] ++
    (if op.enclosesRight right then Piece.parenthesized (right.pieces level)
      else right.pieces level)
  | .block body _ =>
    [.mark .lbrace, .newline] ++ Stmt.blockPieces (level + 1) body ++
      [.indent level, .mark .rbrace]

/-- A statement with its lines, at a level. -/
def Stmt.pieces (level : Nat) : Stmt → List Piece
  | .constDef name ty value _ =>
    [.indent level, .mark .kwConst, .space, name.word] ++ Ident.typeWords ty ++
      [.space, .mark .assign, .space] ++ value.pieces level ++ [.mark .semi, .newline]
  | .varDef name ty value _ =>
    [.indent level, .mark .kwVar, .space, name.word] ++ Ident.typeWords ty ++
      [.space, .mark .assign, .space] ++ value.pieces level ++ [.mark .semi, .newline]
  | .varDecl name ty _ =>
    [.indent level, .mark .kwVar, .space, name.word] ++ Ident.typeWords ty ++
      [.mark .semi, .newline]
  | .assign target value _ =>
    [.indent level, target.word, .space, .mark .assign, .space] ++ value.pieces level ++
      [.mark .semi, .newline]
  | .print value _ =>
    [.indent level, .mark .kwPrint, .space] ++ value.pieces level ++ [.mark .semi, .newline]
  | .ifElse test thenBlock elseBlock _ =>
    [.indent level, .mark .kwIf, .space] ++ test.pieces level ++
      [.space, .mark .lbrace, .newline] ++ Stmt.blockPieces (level + 1) thenBlock ++
      [.indent level, .mark .rbrace] ++
      (if elseBlock.isEmpty then []
        else
          [.space, .mark .kwElse, .space, .mark .lbrace, .newline] ++
            Stmt.blockPieces (level + 1) elseBlock ++ [.indent level, .mark .rbrace]) ++
      [.newline]
  | .whileLoop test body _ =>
    [.indent level, .mark .kwWhile, .space] ++ test.pieces level ++
      [.space, .mark .lbrace, .newline] ++ Stmt.blockPieces (level + 1) body ++
      [.indent level, .mark .rbrace, .newline]
  | .breakLoop _ => [.indent level, .mark .kwBreak, .mark .semi, .newline]
  | .continueLoop _ => [.indent level, .mark .kwContinue, .mark .semi, .newline]
  | .expr value => .indent level :: value.pieces level ++ [.mark .semi, .newline]

/-- Statements one below the other, at a level. -/
def Stmt.blockPieces (level : Nat) : List Stmt → List Piece
  | [] => []
  | first :: rest => first.pieces level ++ Stmt.blockPieces level rest

end

/-- The pieces of the canonical form of a program. -/
def Program.pieces (program : Program) : List Piece :=
  Stmt.blockPieces 0 program.body

/-- The canonical form of a program. -/
def Program.format (program : Program) : String :=
  Piece.render program.pieces

end BlockLang
