/-!
# Reading decimals

`Decimal.ofText?` reads a float from decimal text: an optional sign, digits with an optional point
and an optional power of ten, or the name of an infinity or of the value that is no number.  The
result is the float nearest to the exact decimal, of two equally near ones the even one, and an
infinity for what is too large.
-/

namespace BlockLang.Decimal

/-- The natural number that a run of digits denotes. -/
def ofDigits (digits : List Char) : Nat :=
  digits.foldl (fun n c => 10 * n + (c.toNat - '0'.toNat)) 0

/-- Digits with a place for the point: the float nearest to
`whole.fraction · 10 ^ exponent`. -/
def ofPlaces (whole fraction : List Char) (exponent : Int) : Float :=
  let power := exponent - fraction.length
  Float.ofScientific (ofDigits (whole ++ fraction)) (power < 0) power.natAbs

/-- A power of ten behind its mark: an optional sign and at least one digit. -/
def ofExponent? : List Char → Option Int
  | '-' :: digits => if digits ≠ [] ∧ digits.all Char.isDigit then some (-ofDigits digits) else none
  | '+' :: digits => if digits ≠ [] ∧ digits.all Char.isDigit then some (ofDigits digits) else none
  | digits => if digits ≠ [] ∧ digits.all Char.isDigit then some (ofDigits digits) else none

/-- A number without a sign. -/
def ofMagnitude? (text : List Char) : Option Float :=
  let name := String.ofList (text.map Char.toLower)
  if name = "inf" ∨ name = "infinity" then some (1.0 / 0.0)
  else if name = "nan" then some (0.0 / 0.0)
  else
    let whole := text.takeWhile Char.isDigit
    let (fraction, rest) := match text.dropWhile Char.isDigit with
      | '.' :: rest => (rest.takeWhile Char.isDigit, rest.dropWhile Char.isDigit)
      | rest => ([], rest)
    if whole = [] ∧ fraction = [] then none
    else
      match rest with
      | [] => some (ofPlaces whole fraction 0)
      | mark :: power =>
        if mark = 'e' ∨ mark = 'E' then (ofExponent? power).map (ofPlaces whole fraction)
        else none

/-- A number with an optional sign. -/
def ofText? (text : String) : Option Float :=
  match text.toList with
  | '-' :: rest => (ofMagnitude? rest).map (- ·)
  | '+' :: rest => ofMagnitude? rest
  | rest => ofMagnitude? rest

end BlockLang.Decimal
