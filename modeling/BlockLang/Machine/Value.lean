import BlockLang.Decimal.Text
import BlockLang.Fault.Basic
import BlockLang.Typing.Ty

/-!
# Values

What an expression stands for when a program runs, and the operations on values.  Integers are
64 bits wide and never wrap: an operation whose exact result does not fit is a fault.  Division
goes toward zero, and dividing by an integer or float zero is a fault.
-/

namespace BlockLang

/-- The values of a running program. -/
inductive Value
  | int (value : Int64)
  | float (value : Float)
  | bool (value : Bool)
  | char (value : Char)
  deriving DecidableEq, Repr, Inhabited

namespace Value

/-- The type of a value. -/
def ty : Value → Ty
  | int _ => .int
  | float _ => .float
  | bool _ => .bool
  | char _ => .char

/-- The value of a variable that has no initial value. -/
def zero : Ty → Value
  | .int => int 0
  | .float => float 0.0
  | .bool => bool false
  | .char => char '\x00'

@[simp] theorem ty_zero (t : Ty) : (zero t).ty = t := by
  cases t <;> rfl

/-- The value of a literal. -/
def ofLiteral : Literal → Value
  | .int value _ => int value
  | .float value _ => float value
  | .bool value _ => bool value
  | .char value _ => char value

@[simp] theorem ty_ofLiteral (l : Literal) : (ofLiteral l).ty = Ty.ofLiteral l := by
  cases l <;> rfl

/-- A value as it is printed: floats have six decimals, and a character is that character. -/
def text : Value → String
  | int value => toString value.toInt
  | float value => Decimal.sixPlaces value
  | bool value => if value then "true" else "false"
  | char value => String.singleton value

/-- What a `print` writes: the value and the end of the line, except that characters stand on
their own. -/
def printed (v : Value) : String :=
  match v with
  | char _ => v.text
  | _ => v.text ++ "\n"

/-! ## Integers -/

/-- The integer of 64 bits that equals `n`, if there is one. -/
def ofInt? (n : Int) : Option Int64 :=
  if Int64.minValue.toInt ≤ n ∧ n ≤ Int64.maxValue.toInt then some (Int64.ofInt n) else none

theorem ofInt?_isSome {n : Int} :
    (ofInt? n).isSome = true ↔ Int64.minValue.toInt ≤ n ∧ n ≤ Int64.maxValue.toInt := by
  unfold ofInt?
  split <;> simp_all

theorem toInt_of_ofInt? {n : Int} {v : Int64} (h : ofInt? n = some v) : v.toInt = n := by
  unfold ofInt? at h
  split at h
  · next range =>
    cases h
    exact Int64.toInt_ofInt_of_le range.1 (Int.lt_of_le_sub_one range.2)
  · cases h

/-- The exact result of an integer operation, or the fault that it does not fit. -/
def exactly (op : String) (line : Nat) (n : Int) : Except Fault Value :=
  match ofInt? n with
  | some v => .ok (int v)
  | none => .error (.integerOverflow op line)

/-! ## Operators -/

/-- The fault that an operator has no rule for operands of these types. -/
def unsupported (op : BinOp) (left right : Ty) (line : Nat) : Except Fault Value :=
  .error (.operandMismatch op.symbol (left.name ++ " and " ++ right.name) line)

/-- Apply an operator to one operand. -/
def applyUnary (op : UnaryOp) (v : Value) (line : Nat) : Except Fault Value :=
  match op, v with
  | .pos, int _ | .pos, float _ => .ok v
  | .neg, int a => exactly op.symbol line (-a.toInt)
  | .neg, float a => .ok (float (-a))
  | .not, bool a => .ok (bool !a)
  | _, _ => .error (.operandMismatch op.symbol v.ty.name line)

/-- The order relation of an operator on things that are less, and at most, one another. -/
def ordered (op : BinOp) (less atMost greater atLeast : Bool) : Value :=
  bool (match op with
    | .lt => less
    | .le => atMost
    | .gt => greater
    | _ => atLeast)

/-- Whether two values of one type are equal.  A float that is no number equals nothing, and the
two zeros are equal. -/
def same : Value → Value → Bool
  | int a, int b => a == b
  | float a, float b => a == b
  | bool a, bool b => a == b
  | char a, char b => a == b
  | _, _ => false

/-- Apply an operator to two integers. -/
def applyInts (op : BinOp) (a b : Int64) (line : Nat) : Except Fault Value :=
  match op with
  | .add => exactly op.symbol line (a.toInt + b.toInt)
  | .sub => exactly op.symbol line (a.toInt - b.toInt)
  | .mul => exactly op.symbol line (a.toInt * b.toInt)
  | .div =>
    if b = 0 then .error (.divisionByZero line)
    else exactly op.symbol line (a.toInt.tdiv b.toInt)
  | .lt | .le | .gt | .ge => .ok (ordered op (a < b) (a ≤ b) (b < a) (b ≤ a))
  | .eq => .ok (bool (same (int a) (int b)))
  | .ne => .ok (bool !same (int a) (int b))
  | .and | .or => unsupported op .int .int line

/-- Apply an operator to two floats. -/
def applyFloats (op : BinOp) (a b : Float) (line : Nat) : Except Fault Value :=
  match op with
  | .add => .ok (float (a + b))
  | .sub => .ok (float (a - b))
  | .mul => .ok (float (a * b))
  | .div => if b == 0.0 then .error (.divisionByZero line) else .ok (float (a / b))
  | .lt | .le | .gt | .ge => .ok (ordered op (a < b) (a ≤ b) (b < a) (b ≤ a))
  | .eq => .ok (bool (same (float a) (float b)))
  | .ne => .ok (bool !same (float a) (float b))
  | .and | .or => unsupported op .float .float line

/-- Apply an operator to two characters, which are ordered by their code points. -/
def applyChars (op : BinOp) (a b : Char) (line : Nat) : Except Fault Value :=
  match op with
  | .lt | .le | .gt | .ge => .ok (ordered op (a < b) (a ≤ b) (b < a) (b ≤ a))
  | .eq => .ok (bool (same (char a) (char b)))
  | .ne => .ok (bool !same (char a) (char b))
  | _ => unsupported op .char .char line

/-- Apply an operator to two truth values. -/
def applyBools (op : BinOp) (a b : Bool) (line : Nat) : Except Fault Value :=
  match op with
  | .and => .ok (bool (a && b))
  | .or => .ok (bool (a || b))
  | .eq => .ok (bool (same (bool a) (bool b)))
  | .ne => .ok (bool !same (bool a) (bool b))
  | _ => unsupported op .bool .bool line

/-- Apply an operator to two operands, which must be of one type. -/
def applyBinary (op : BinOp) (left right : Value) (line : Nat) : Except Fault Value :=
  match left, right with
  | int a, int b => applyInts op a b line
  | float a, float b => applyFloats op a b line
  | char a, char b => applyChars op a b line
  | bool a, bool b => applyBools op a b line
  | _, _ => unsupported op left.ty right.ty line

end Value

end BlockLang
