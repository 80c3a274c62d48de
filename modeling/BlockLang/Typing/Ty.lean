import BlockLang.Program.Basic

/-!
# Types

The four types and the operators between them.  Which operator takes which operands is a literal
table, `Ty.binaryTable` and `Ty.unaryTable`; there are no conversions, so that an operator between
an `int` and a `float` is in no row.
-/

namespace BlockLang

/-- The types of values. -/
inductive Ty
  | int | float | bool | char
  deriving DecidableEq, Repr, Inhabited

namespace Ty

/-- All types, in the order in which the language lists them. -/
def all : List Ty :=
  [int, float, bool, char]

/-- The name of a type. -/
def name : Ty → String
  | int => "int"
  | float => "float"
  | bool => "bool"
  | char => "char"

/-- The type of a given name. -/
def ofName? (text : String) : Option Ty :=
  all.find? fun ty => ty.name == text

theorem ofName?_name (ty : Ty) : ofName? ty.name = some ty := by
  cases ty <;> rfl

theorem name_of_ofName? {text : String} {ty : Ty} (h : ofName? text = some ty) :
    ty.name = text := by
  simpa using List.find?_some h

/-- A row of the table of binary operators. -/
structure BinaryRow where
  op : BinOp
  left : Ty
  right : Ty
  result : Ty
  deriving DecidableEq, Repr

/-- A row of the table of unary operators. -/
structure UnaryRow where
  op : UnaryOp
  operand : Ty
  result : Ty
  deriving DecidableEq, Repr

/-- The operands that binary operators take, and the type of the result. -/
def binaryTable : List BinaryRow :=
  [⟨.add, int, int, int⟩, ⟨.sub, int, int, int⟩, ⟨.mul, int, int, int⟩, ⟨.div, int, int, int⟩,
   ⟨.lt, int, int, bool⟩, ⟨.le, int, int, bool⟩, ⟨.gt, int, int, bool⟩, ⟨.ge, int, int, bool⟩,
   ⟨.eq, int, int, bool⟩, ⟨.ne, int, int, bool⟩,
   ⟨.add, float, float, float⟩, ⟨.sub, float, float, float⟩, ⟨.mul, float, float, float⟩,
   ⟨.div, float, float, float⟩,
   ⟨.lt, float, float, bool⟩, ⟨.le, float, float, bool⟩, ⟨.gt, float, float, bool⟩,
   ⟨.ge, float, float, bool⟩, ⟨.eq, float, float, bool⟩, ⟨.ne, float, float, bool⟩,
   ⟨.lt, char, char, bool⟩, ⟨.le, char, char, bool⟩, ⟨.gt, char, char, bool⟩,
   ⟨.ge, char, char, bool⟩, ⟨.eq, char, char, bool⟩, ⟨.ne, char, char, bool⟩,
   ⟨.eq, bool, bool, bool⟩, ⟨.ne, bool, bool, bool⟩,
   ⟨.and, bool, bool, bool⟩, ⟨.or, bool, bool, bool⟩]

/-- The operands that unary operators take, and the type of the result. -/
def unaryTable : List UnaryRow :=
  [⟨.pos, int, int⟩, ⟨.neg, int, int⟩, ⟨.pos, float, float⟩, ⟨.neg, float, float⟩,
   ⟨.not, bool, bool⟩]

/-- The type of the result of a binary operator, if it takes operands of these types. -/
def ofBinary? (op : BinOp) (left right : Ty) : Option Ty :=
  (binaryTable.find? fun row => row.op = op && row.left = left && row.right = right).map (·.result)

/-- The type of the result of a unary operator, if it takes an operand of this type. -/
def ofUnary? (op : UnaryOp) (operand : Ty) : Option Ty :=
  (unaryTable.find? fun row => row.op = op && row.operand = operand).map (·.result)

/-- Both operands of a binary operator have one type. -/
theorem eq_of_ofBinary? {op : BinOp} {left right result : Ty}
    (h : ofBinary? op left right = some result) : left = right := by
  obtain ⟨row, found, _⟩ := Option.map_eq_some_iff.mp h
  have fits := List.find?_some found
  simp only [Bool.and_eq_true, decide_eq_true_eq] at fits
  have equal : ∀ row ∈ binaryTable, row.left = row.right := by decide
  rw [← fits.1.2, ← fits.2, equal row (List.mem_of_find?_eq_some found)]

/-- The type of a value written in the program. -/
def ofLiteral : Literal → Ty
  | .int .. => int
  | .float .. => float
  | .bool .. => bool
  | .char .. => char

end Ty

end BlockLang
