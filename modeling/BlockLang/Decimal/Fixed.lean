import BlockLang.Decimal.Binary

/-!
# Rounding to fixed places

`Decimal.roundDiv` rounds a quotient of natural numbers to the nearest one, a half to the even
neighbour.  `Decimal.fixed` writes a positive number with a given number of decimals.
-/

namespace BlockLang.Decimal

/-- The natural number nearest to a quotient; of two equally near ones the even one. -/
def roundDiv (numerator denominator : Nat) : Nat :=
  let below := numerator / denominator
  let excess := 2 * (numerator % denominator)
  if denominator < excess || (excess = denominator && below % 2 = 1) then below + 1 else below

/-- A rounded quotient is at most half a unit away. -/
theorem roundDiv_close (numerator : Nat) {denominator : Nat} (h : 0 < denominator) :
    2 * (roundDiv numerator denominator * denominator) ≤ 2 * numerator + denominator ∧
      2 * numerator ≤ 2 * (roundDiv numerator denominator * denominator) + denominator := by
  have hdiv := Nat.div_add_mod numerator denominator
  have hmod := Nat.mod_lt numerator h
  rw [Nat.mul_comm] at hdiv
  simp only [roundDiv]
  split
  · next hup =>
    simp only [Bool.or_eq_true, Bool.and_eq_true, decide_eq_true_eq] at hup
    rw [Nat.add_mul, Nat.one_mul]
    omega
  · next hdown =>
    simp only [Bool.or_eq_true, Bool.and_eq_true, decide_eq_true_eq] at hdown
    omega

/-- A natural number with at least `places` digits. -/
def padded (places n : Nat) : String :=
  let digits := Nat.toDigits 10 n
  String.ofList (List.replicate (places - digits.length) '0' ++ digits)

/-- A positive number with `places` decimals, at least one, rounded to the nearest. -/
def fixed (places : Nat) (b : Binary) : String :=
  let units := roundDiv (b.numerator * Nat.pow 10 places) b.denominator
  toString (units / Nat.pow 10 places) ++ "." ++ padded places (units % Nat.pow 10 places)

end BlockLang.Decimal
