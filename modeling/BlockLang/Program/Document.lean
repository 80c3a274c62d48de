import BlockLang.Json
import BlockLang.Program.Basic

/-!
# Programs as documents

`Program.document` is the whole tree of a program as a JSON document.  A node is an object with
one field, named for the kind of node, whose value holds the parts in a fixed order, and every
node carries its line.
-/

namespace BlockLang

/-- A node: its kind and its parts. -/
def Json.node (kind : String) (parts : List (String × Json)) : Json :=
  .object [(kind, .object parts)]

/-- The statements of a block. -/
def Json.statements (items : List Json) : Json :=
  .object [("stmts", .array items)]

/-- A name. -/
def Ident.document (ident : Ident) : Json :=
  .object [("name", .text ident.name), ("line", .nat ident.line)]

/-- A literal: its value and its line. -/
def Literal.document : Literal → Json
  | int value line => .object [("Int", .array [.int value.toInt, .nat line])]
  | float value line => .object [("Float", .array [.float value, .nat line])]
  | bool value line => .object [("Bool", .array [.bool value, .nat line])]
  | char value line => .object [("Char", .array [.text (String.singleton value), .nat line])]

/-- The name of an operator in a document. -/
def BinOp.label : BinOp → String
  | add => "Add"
  | sub => "Sub"
  | mul => "Mul"
  | div => "Div"
  | lt => "Lt"
  | le => "Le"
  | gt => "Gt"
  | ge => "Ge"
  | eq => "Eq"
  | ne => "Ne"
  | and => "And"
  | or => "Or"

/-- The name of an operator in a document. -/
def UnaryOp.label : UnaryOp → String
  | pos => "Pos"
  | neg => "Neg"
  | not => "Not"

mutual

/-- An expression. -/
def Expr.document : Expr → Json
  | .literal value => .object [("Literal", value.document)]
  | .name ident => .object [("Name", ident.document)]
  | .unary op operand line =>
    .node "Unary" [("op", .text op.label), ("operand", operand.document), ("line", .nat line)]
  | .binary op left right line =>
    .node "Binary" [("op", .text op.label), ("left", left.document), ("right", right.document),
      ("line", .nat line)]
  | .block body line =>
    .node "Block" [("body", .statements (Stmt.documents body)), ("line", .nat line)]

/-- A statement. -/
def Stmt.document : Stmt → Json
  | .constDef name ty value line =>
    .node "ConstDef" [("name", name.document), ("ty", .option Ident.document ty),
      ("value", value.document), ("line", .nat line)]
  | .varDef name ty value line =>
    .node "VarDef" [("name", name.document), ("ty", .option Ident.document ty),
      ("value", value.document), ("line", .nat line)]
  | .varDecl name ty line =>
    .node "VarDef" [("name", name.document), ("ty", .option Ident.document ty), ("value", .null),
      ("line", .nat line)]
  | .assign target value line =>
    .node "Assign" [("target", target.document), ("value", value.document), ("line", .nat line)]
  | .print value line => .node "Print" [("expr", value.document), ("line", .nat line)]
  | .ifElse test thenBlock elseBlock line =>
    .node "If" [("test", test.document),
      ("then_block", .statements (Stmt.documents thenBlock)),
      ("else_block", .statements (Stmt.documents elseBlock)),
      ("line", .nat line)]
  | .whileLoop test body line =>
    .node "While" [("test", test.document),
      ("body", .statements (Stmt.documents body)), ("line", .nat line)]
  | .breakLoop line => .node "Break" [("line", .nat line)]
  | .continueLoop line => .node "Continue" [("line", .nat line)]
  | .expr value => .object [("Expr", value.document)]

/-- The statements of a list. -/
def Stmt.documents : List Stmt → List Json
  | [] => []
  | first :: rest => first.document :: Stmt.documents rest

end

/-- The tree of a program. -/
def Program.document (program : Program) : Json :=
  .object [("body", .statements (Stmt.documents program.body))]

end BlockLang
