import BlockLang.Proofs.Decimal.Conversion
import BlockLang.Proofs.Decimal.Pointed

/-!
# The text of a float is read as this float

The shortest decimal of a float is one that the float attracts (`Binary.attracts_shortest`): the
search for it asks, in whole numbers, whether a decimal lies between the midpoints to the
neighbours (`attracts_of_readsBack`), and falls back on the exact value.  Reading a decimal gives
the float that attracts it.  So the text of a float without a sign is read as this float
(`ofText?_plain`), and every text with a point is read as a float without a sign
(`isUnsigned_ofText?`).
-/

namespace BlockLang.Decimal

/-- A power of which the exponent may be cut off at zero from below. -/
lemma pow_toNat {a : ℚ} (ha : a ≠ 0) (e : Int) : a ^ e.toNat = a ^ e * a ^ (-e).toNat := by
  rw [← zpow_natCast, ← zpow_natCast, ← zpow_add₀ ha]
  congr 1
  omega

/-- The search for the shortest decimal compares numbers that are multiples of the decimal and of
the midpoints around the float. -/
lemma attracts_of_readsBack {b : Binary} {d : Scaled} (hb : b.IsFloat)
    (h : readsBack b d = true) : b.Attracts d.value := by
  generalize hscale : (4 * (2 ^ (-b.exponent).toNat * 10 ^ (-d.exponent).toNat) : ℚ) = scale
  have hpositive : 0 < scale := by
    rw [← hscale]
    positivity
  have hunit : ((2 ^ b.exponent.toNat * 10 ^ (-d.exponent).toNat : ℕ) : ℚ) =
      scale / 4 * 2 ^ b.exponent := by
    push_cast
    rw [← hscale, pow_toNat two_ne_zero]
    ring
  have hpoint : ((4 * d.digits * 2 ^ (-b.exponent).toNat * 10 ^ d.exponent.toNat : ℕ) : ℚ) =
      scale * d.value := by
    push_cast
    rw [← hscale, Scaled.value, pow_toNat (by norm_num : (10 : ℚ) ≠ 0)]
    ring
  have hhigh :
      (((4 * b.mantissa + 2) * (2 ^ b.exponent.toNat * 10 ^ (-d.exponent).toNat) : ℕ) : ℚ) =
      scale * ((b.mantissa + 1 / 2) * 2 ^ b.exponent) := by
    rw [Nat.cast_mul, hunit]
    push_cast
    ring
  have hlow : (((4 * b.mantissa - if b.isNarrowBelow then 1 else 2) *
      (2 ^ b.exponent.toNat * 10 ^ (-d.exponent).toNat) : ℕ) : ℚ) =
      scale * ((b.mantissa - if b.isNarrowBelow then 1 / 4 else 1 / 2) * 2 ^ b.exponent) := by
    have hpos := hb.pos
    rw [Nat.cast_mul, hunit]
    split
    · rw [Nat.cast_sub (by omega)]
      push_cast
      ring
    · rw [Nat.cast_sub (by omega)]
      push_cast
      ring
  simp only [readsBack] at h
  split at h
  · next heven =>
    rw [Bool.and_eq_true, decide_eq_true_eq, decide_eq_true_eq] at h
    simp only [Binary.denominator, Nat.pow_eq] at h
    obtain ⟨hbelow, habove⟩ := h
    rw [← Nat.cast_le (α := ℚ), hlow, hpoint] at hbelow
    rw [← Nat.cast_le (α := ℚ), hhigh, hpoint] at habove
    exact ⟨le_of_mul_le_mul_left hbelow hpositive, le_of_mul_le_mul_left habove hpositive,
      fun hodd => by omega⟩
  · rw [Bool.and_eq_true, decide_eq_true_eq, decide_eq_true_eq] at h
    simp only [Binary.denominator, Nat.pow_eq] at h
    obtain ⟨hbelow, habove⟩ := h
    rw [← Nat.cast_lt (α := ℚ), hlow, hpoint] at hbelow
    rw [← Nat.cast_lt (α := ℚ), hhigh, hpoint] at habove
    have hbelow' := lt_of_mul_lt_mul_left hbelow hpositive.le
    have habove' := lt_of_mul_lt_mul_left habove hpositive.le
    exact ⟨hbelow'.le, habove'.le, fun _ => ⟨hbelow', habove'⟩⟩

/-- The exact decimal of a float has the value of the float. -/
lemma value_toScaled (b : Binary) : b.toScaled.value = b.value := by
  rw [Binary.toScaled, Binary.value]
  split
  · next hexponent =>
    have hpower : (b.exponent.toNat : Int) = b.exponent := by omega
    simp only [Scaled.value, Binary.numerator, Nat.pow_eq, zpow_zero, mul_one]
    conv_rhs => rw [← hpower, zpow_natCast]
    push_cast
    rfl
  · next hexponent =>
    obtain ⟨k, hk⟩ : ∃ k : Nat, b.exponent = -k := ⟨(-b.exponent).toNat, by omega⟩
    have hplaces : (- -(k : Int)).toNat = k := by omega
    have hten : (10 : ℚ) ^ k = 5 ^ k * 2 ^ k := by
      rw [← mul_pow]
      norm_num
    simp only [Scaled.value, hk, hplaces, Nat.pow_eq, zpow_neg, zpow_natCast, hten]
    push_cast
    field_simp

/-- The shortest decimal of a float is attracted by it. -/
lemma Binary.attracts_shortest {b : Binary} (hb : b.IsFloat) (tie : Tie) :
    b.Attracts (shortest tie b).value := by
  rw [shortest]
  cases hfound : gridExponents.findSome? (onGrid? tie b) with
  | none =>
    rw [Option.getD_none, value_toScaled]
    exact b.attracts_value
  | some d =>
    obtain ⟨exponent, -, hgrid⟩ := List.exists_of_findSome?_eq_some hfound
    exact attracts_of_readsBack hb (readsBack_of_onGrid? hgrid)

/-- The text of a float without a sign is read as this float. -/
theorem ofText?_plain {x : Float}
    (hx : Parts.ofFloat x = .zero false ∨ ∃ size, Parts.ofFloat x = .finite false size) :
    ofText? (plain x) = some x := by
  obtain hzero | ⟨b, hfinite⟩ := hx
  · have hplain : plain x = String.ofList (['0'] ++ '.' :: ['0']) := by
      rw [plain, hzero]
      rfl
    rw [hplain, ofText?_pointed (by simp) (fun c hc => isDigit_of_mem_zero hc)
      (fun c hc => isDigit_of_mem_zero hc), ofPlaces_eq (by simp), Parts.eq_pack_of_zero hzero]
    rfl
  · obtain ⟨hb, -⟩ := Parts.isFloat_and_toNat_of_finite hfinite
    obtain ⟨whole, fraction, htext, hne, hwhole, hfraction, hne', hvalue⟩ :=
      exists_positional_eq (shortest .up b)
    have hplain : plain x = String.ofList (whole ++ '.' :: fraction) := by
      rw [plain, hfinite]
      simpa [sign] using htext
    have hattracts := Binary.attracts_shortest hb .up
    rw [← hvalue] at hattracts
    rw [hplain, ofText?_pointed hne hwhole hfraction, ofPlaces_eq hne',
      ofScientific_eq hfinite (List.length_pos_iff.mpr hne') hattracts]

/-- A text with a point is read as a float without a sign, which may be infinite. -/
theorem isUnsigned_ofText? {whole fraction : List Char} {x : Float} (hne : whole ≠ [])
    (hwhole : ∀ c ∈ whole, c.isDigit = true) (hfraction : ∀ c ∈ fraction, c.isDigit = true)
    (h : ofText? (String.ofList (whole ++ '.' :: fraction)) = some x) :
    (Parts.ofFloat x).IsUnsigned := by
  rw [ofText?_pointed hne hwhole hfraction, Option.some.injEq] at h
  subst h
  exact isUnsigned_ofScientific _ _ _

end BlockLang.Decimal
