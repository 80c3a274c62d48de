/-!
# The exact value of a float

A finite float other than zero is `mantissa · 2 ^ exponent` for a natural number and an integer
that its bits determine.  `Decimal.Parts.ofFloat` takes a float apart into its sign and that
pair; everything that turns floats into decimal text is exact arithmetic on it.
-/

namespace BlockLang.Decimal

/-- The positive number `mantissa · 2 ^ exponent`. -/
structure Binary where
  mantissa : Nat
  exponent : Int
  deriving DecidableEq, Repr, Inhabited

namespace Binary

/-- The exponent of the smallest floats, which have no smaller neighbours to be rounded to. -/
def leastExponent : Int := -1074

/-- The numerator of the value over `denominator`. -/
def numerator (b : Binary) : Nat :=
  b.mantissa * Nat.pow 2 b.exponent.toNat

/-- The denominator of the value: a power of two, or one. -/
def denominator (b : Binary) : Nat :=
  Nat.pow 2 (-b.exponent).toNat

theorem denominator_pos (b : Binary) : 0 < b.denominator :=
  Nat.two_pow_pos _

/-- Whether the float below is only half as far away as the one above: so it is at a power of
two, except among the smallest floats, which are evenly spaced. -/
def isNarrowBelow (b : Binary) : Bool :=
  b.mantissa = Nat.pow 2 52 && leastExponent < b.exponent

end Binary

/-- What a float is. -/
inductive Parts
  | nan
  | infinite (negative : Bool)
  | zero (negative : Bool)
  | finite (negative : Bool) (size : Binary)
  deriving DecidableEq, Repr, Inhabited

/-- Take a float apart: a sign bit, eleven bits of exponent and fifty-two of fraction.  A
fraction has a leading one in front unless all bits of the exponent are clear. -/
def Parts.ofFloat (x : Float) : Parts :=
  let bits : Nat := x.toBits.toNat
  let negative := bits / Nat.pow 2 63 = 1
  let exponent : Nat := bits / Nat.pow 2 52 % Nat.pow 2 11
  let fraction := bits % Nat.pow 2 52
  if exponent = Nat.pow 2 11 - 1 then
    if fraction = 0 then .infinite negative else .nan
  else if exponent = 0 then
    if fraction = 0 then .zero negative else .finite negative ⟨fraction, Binary.leastExponent⟩
  else .finite negative ⟨Nat.pow 2 52 + fraction, Binary.leastExponent - 1 + Int.ofNat exponent⟩

end BlockLang.Decimal
