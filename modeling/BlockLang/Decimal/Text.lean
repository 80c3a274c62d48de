import BlockLang.Decimal.Fixed
import BlockLang.Decimal.Shortest

/-!
# Floats as text

The three ways in which floats are written: `Decimal.sixPlaces` for printed values,
`Decimal.plain` for literals in a program, and `Decimal.documented?` for documents.
-/

namespace BlockLang.Decimal

/-- A minus sign for a negative number. -/
def sign (negative : Bool) : String :=
  if negative then "-" else ""

/-- Six decimals, never an exponent.  A negative number keeps its sign when it rounds to zero. -/
def sixPlaces (x : Float) : String :=
  match Parts.ofFloat x with
  | .nan => "NaN"
  | .infinite negative => sign negative ++ "inf"
  | .zero negative => sign negative ++ "0.000000"
  | .finite negative size => sign negative ++ fixed 6 size

/-- A decimal written out in full, with at least one digit on each side of the point. -/
def Scaled.positional (d : Scaled) : String :=
  let digits := Nat.toDigits 10 d.digits
  let places := (-d.exponent).toNat
  if places = 0 then
    String.ofList (digits ++ List.replicate d.exponent.toNat '0') ++ ".0"
  else if places < digits.length then
    let whole := digits.length - places
    String.ofList (digits.take whole ++ '.' :: digits.drop whole)
  else
    String.ofList ('0' :: '.' :: List.replicate (places - digits.length) '0' ++ digits)

/-- A decimal with one digit in front of the point and the power of ten behind an `e`. -/
def Scaled.exponential (d : Scaled) : String :=
  let digits := Nat.toDigits 10 d.digits
  let power := d.exponent + (digits.length - 1 : Nat)
  let fraction := match digits.drop 1 with
    | [] => []
    | rest => '.' :: rest
  String.ofList (digits.take 1 ++ fraction) ++ "e" ++ (if power < 0 then "-" else "+") ++
    toString power.natAbs

/-- The shortest digits that read back, written out in full and always with a point, so that the
text of a finite number is read as a float. -/
def plain (x : Float) : String :=
  match Parts.ofFloat x with
  | .nan => "NaN.0"
  | .infinite negative => sign negative ++ "inf.0"
  | .zero negative => sign negative ++ "0.0"
  | .finite negative size => sign negative ++ (shortest .up size).positional

/-- The shortest digits that read back, in full if the leading digit stands at most five places
behind the point or sixteen in front of it, with an exponent otherwise.  Only finite numbers have
this form. -/
def documented? (x : Float) : Option String :=
  match Parts.ofFloat x with
  | .nan | .infinite _ => none
  | .zero negative => some (sign negative ++ "0.0")
  | .finite negative size =>
    let d := shortest .even size
    let power := d.exponent + ((Nat.toDigits 10 d.digits).length - 1 : Nat)
    some (sign negative ++
      if -5 ≤ power ∧ power ≤ 15 then d.positional else d.exponential)

end BlockLang.Decimal
