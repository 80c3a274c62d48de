import BlockLang.Decimal.Binary

/-!
# The shortest decimal of a float

`Decimal.shortest` gives the decimal with the fewest digits that reads back as a given float, and
among those the nearest one.  The decimals with a given last place are a grid, and the coarsest
grid with a point close enough to the float is wanted; of its points only the two neighbours of
the float need to be tried.
-/

namespace BlockLang.Decimal

/-- The number `digits · 10 ^ exponent`. -/
structure Scaled where
  digits : Nat
  exponent : Int
  deriving DecidableEq, Repr, Inhabited

/-- The exact value of a float as a decimal, which may have hundreds of digits. -/
def Binary.toScaled (b : Binary) : Scaled :=
  if 0 ≤ b.exponent then ⟨b.numerator, 0⟩
  else ⟨b.mantissa * Nat.pow 5 (-b.exponent).toNat, b.exponent⟩

/-- Which of two equally near decimals is taken. -/
inductive Tie
  /-- The larger one. -/
  | up
  /-- The one with an even last digit. -/
  | even
  deriving DecidableEq, Repr

/-- Whether the lower of two equally near grid points is taken. -/
def Tie.takesLow : Tie → Nat → Bool
  | up, _ => false
  | even, low => low % 2 = 0

/-- Whether a grid point reads back as the float: it lies between the two points half way to the
neighbouring floats, which count themselves if the mantissa is even. -/
def readsBack (b : Binary) (d : Scaled) : Bool :=
  let width := if b.isNarrowBelow then 1 else 2
  let unit := Nat.pow 2 b.exponent.toNat * Nat.pow 10 (-d.exponent).toNat
  let point := 4 * d.digits * b.denominator * Nat.pow 10 d.exponent.toNat
  let low := (4 * b.mantissa - width) * unit
  let high := (4 * b.mantissa + 2) * unit
  if b.mantissa % 2 = 0 then low ≤ point && point ≤ high else low < point && point < high

/-- The best point of the grid with last place `10 ^ exponent` that reads back as the float. -/
def onGrid? (tie : Tie) (b : Binary) (exponent : Int) : Option Scaled :=
  let numerator := b.numerator * Nat.pow 10 (-exponent).toNat
  let denominator := b.denominator * Nat.pow 10 exponent.toNat
  let below := numerator / denominator
  let excess := 2 * (numerator % denominator)
  let isLow := 0 < below && readsBack b ⟨below, exponent⟩
  let isHigh := readsBack b ⟨below + 1, exponent⟩
  let takesLow := excess < denominator ||
    (excess = denominator && tie.takesLow below)
  if isLow && (takesLow || !isHigh) then some ⟨below, exponent⟩
  else if isHigh then some ⟨below + 1, exponent⟩
  else none

/-- The exponents of the grids on which a float can lie, the coarsest first. -/
def gridExponents : List Int :=
  (List.range 1400).map fun (i : Nat) => (309 : Int) - i

/-- The decimal with the fewest digits that reads back as the float.  The exact value lies on the
finest grid, so that there always is one. -/
def shortest (tie : Tie) (b : Binary) : Scaled :=
  (gridExponents.findSome? (onGrid? tie b)).getD b.toScaled

theorem readsBack_of_onGrid? {tie : Tie} {b : Binary} {exponent : Int} {d : Scaled}
    (h : onGrid? tie b exponent = some d) : readsBack b d = true := by
  simp only [onGrid?] at h
  split at h
  · next hlow =>
    cases h
    simp only [Bool.and_eq_true] at hlow
    exact hlow.1.2
  · split at h
    · next hhigh => cases h; exact hhigh
    · cases h

end BlockLang.Decimal
