import BlockLang.Proofs.Decimal.Bits

/-!
# From decimals to floats

`Float.ofScientific` computes a float from the digits of a decimal and the place of its last digit.
It takes one of two ways: small numbers are divided as floats, all others exactly.  Both end with
one division of positive floats (`ofScientific_eq_div`), and so both give the float that attracts
the decimal (`ofScientific_eq`).  No decimal gives a negative float, or none that is a number
(`isUnsigned_ofScientific`).
-/

namespace BlockLang.Decimal

open Float.Model Float.Model.UnpackedFloat

/-! ## Natural numbers and powers of ten as floats -/

namespace Binary

/-- A natural number with its leading bit moved to the fifty-third place. -/
def ofNat (n : Nat) : Binary :=
  ⟨n * 2 ^ (52 - n.log2), n.log2 - 52⟩

variable {n : Nat}

lemma value_ofNat (hlt : n < 2 ^ 53) : (ofNat n).value = n := by
  by_cases hpos : n = 0
  · simp [hpos, ofNat, value]
  · have hlog : n.log2 < 53 := (Nat.log2_lt hpos).mpr hlt
    obtain ⟨k, hk⟩ : ∃ k : Nat, n.log2 + k = 52 := ⟨52 - n.log2, by omega⟩
    have hshift : 52 - n.log2 = k := by omega
    have hexponent : (n.log2 : Int) - 52 = -k := by omega
    rw [value, ofNat, hshift, hexponent, zpow_neg, zpow_natCast]
    push_cast
    field_simp

lemma isFloat_ofNat (hpos : 0 < n) (hlt : n < 2 ^ 53) : (ofNat n).IsFloat := by
  have hlog : n.log2 < 53 := (Nat.log2_lt hpos.ne').mpr hlt
  have hleast : leastExponent = -1074 := rfl
  have hlow : 2 ^ 52 ≤ n * 2 ^ (52 - n.log2) := by
    calc 2 ^ 52 = 2 ^ n.log2 * 2 ^ (52 - n.log2) := by
          rw [← pow_add, Nat.add_sub_cancel' (by omega)]
      _ ≤ n * 2 ^ (52 - n.log2) := Nat.mul_le_mul_right _ (Nat.log2_self_le hpos.ne')
  have hhigh : n * 2 ^ (52 - n.log2) < 2 ^ 53 := by
    calc n * 2 ^ (52 - n.log2) < 2 ^ (n.log2 + 1) * 2 ^ (52 - n.log2) :=
          Nat.mul_lt_mul_of_pos_right Nat.lt_log2_self (Nat.two_pow_pos _)
      _ = 2 ^ 53 := by
          rw [← pow_add]
          congr 1
          omega
  refine ⟨Nat.mul_pos hpos (Nat.two_pow_pos _), hhigh, ?_, ?_, fun _ => hlow⟩
  · exact (by omega : leastExponent ≤ (n.log2 : Int) - 52)
  · exact (by omega : (n.log2 : Int) - 52 ≤ 971)

end Binary

/-- A natural number of at most fifty-three bits is a float. -/
lemma toFloat_eq {n : Nat} (hpos : 0 < n) (hlt : n < 2 ^ 53) :
    n.toUInt64.toFloat = .ofModel (Float.Model.pack (.finite .positive (Binary.ofNat n).mantissa
      (Binary.ofNat n).exponent (Binary.isFloat_ofNat hpos hlt).pos)) := by
  have hb := Binary.isFloat_ofNat hpos hlt
  have hlog : n.log2 < 53 := (Nat.log2_lt hpos.ne').mpr hlt
  have hnat : n.toUInt64.toNat = n := UInt64.toNat_ofNat_of_lt (hlt.trans (by norm_num))
  have htarget : Format.binary64.targetExponent (totalExponent n 0) =
      (Binary.ofNat n).exponent := by
    have hleast : Binary.leastExponent = -1074 := rfl
    rw [Binary.targetExponent_eq, totalExponent, Binary.ofNat]
    dsimp only
    omega
  have hround : UnpackedFloat.round Format.binary64 .positive n 0 =
      .finite .positive (Binary.ofNat n).mantissa (Binary.ofNat n).exponent hb.pos := by
    have hshift : (0 - (Binary.ofNat n).exponent).toNat = 52 - n.log2 := by
      rw [Binary.ofNat]
      dsimp only
      omega
    have hmantissa : n <<< (52 - n.log2) = (Binary.ofNat n).mantissa := Nat.shiftLeft_eq _ _
    have hexponent : (0 : Int) - (52 - n.log2 : ℕ) = (Binary.ofNat n).exponent := by
      rw [Binary.ofNat]
      dsimp only
      omega
    have hexact : Represents (.ofMantissaAndAccuracy (Binary.ofNat n).mantissa .exact)
        ((Binary.ofNat n).value / 2 ^ (Binary.ofNat n).exponent) := by
      rw [Binary.value, mul_div_cancel_right₀ _ (by positivity)]
      rfl
    rw [UnpackedFloat.round]
    simp only [htarget, decreaseExponent, hshift, hmantissa, hexponent]
    refine Binary.roundWithAccuracy_eq hb (Binary.attracts_value _) hexact
      (Binary.value_bounds hb.pos (Binary.ofNat n).exponent).1 ?_ .positive
    exact hb.targetExponent_eq.ge
  have hcompare : compare (n : Int) 0 = .gt := by
    rw [Int.compare_eq_gt]
    omega
  change Float.ofModel (Float.Model.pack
    (UnpackedFloat.normalize Format.binary64 (n.toUInt64.toNat : Int) 0 .positive)) = _
  rw [hnat, UnpackedFloat.normalize, hcompare]
  simp only [Int.toNat_natCast, hround]

/-- A power of ten is a float while the power of five in it has few enough bits. -/
lemma powerOfTen_eq : ∀ k : Fin Float.exactlyRepresentablePowersOfTen.size,
    Float.exactlyRepresentablePowersOfTen[k] = .ofModel (Float.Model.pack (.finite .positive
      (Binary.ofNat (5 ^ k.1)).mantissa ((Binary.ofNat (5 ^ k.1)).exponent + k.1)
      (by simp [Binary.ofNat]))) := by
  decide +kernel

/-- The numbers that are divided as floats. -/
lemma unpack_toFloat {n : Nat} (hpos : 0 < n) (hlt : n < 2 ^ 53) : ∃ m e h,
    n.toUInt64.toFloat.toModel.unpack = .finite .positive m e h ∧ (m * 2 ^ e : ℚ) = n := by
  have hb := Binary.isFloat_ofNat hpos hlt
  refine ⟨_, _, hb.pos, ?_, Binary.value_ofNat hlt⟩
  rw [toFloat_eq hpos hlt]
  exact hb.unpack_pack

lemma unpack_powerOfTen {k : Nat} (hsize : k < Float.exactlyRepresentablePowersOfTen.size) :
    ∃ m e h, Float.exactlyRepresentablePowersOfTen[k].toModel.unpack = .finite .positive m e h ∧
      (m * 2 ^ e : ℚ) = 10 ^ k := by
  have hk : k < 23 := hsize
  have hlt : 5 ^ k < 2 ^ 53 :=
    (Nat.pow_le_pow_right (by norm_num) (Nat.le_of_lt_succ hk)).trans_lt (by norm_num)
  have hfive := Binary.isFloat_ofNat (n := 5 ^ k) (by positivity) hlt
  have hlog : (5 ^ k).log2 < 53 := (Nat.log2_lt (by positivity)).mpr hlt
  have hb : Binary.IsFloat ⟨(Binary.ofNat (5 ^ k)).mantissa,
      (Binary.ofNat (5 ^ k)).exponent + k⟩ := by
    have hleast := hfive.least
    have hexponent : (Binary.ofNat (5 ^ k)).exponent = (5 ^ k).log2 - 52 := rfl
    refine ⟨hfive.pos, hfive.lt, ?_, ?_, fun _ => hfive.full ?_⟩
    · exact hleast.trans (Int.le_add_of_nonneg_right (Int.natCast_nonneg k))
    · exact (by omega : (Binary.ofNat (5 ^ k)).exponent + k ≤ 971)
    · have hleast' : Binary.leastExponent = -1074 := rfl
      omega
  refine ⟨(Binary.ofNat (5 ^ k)).mantissa, (Binary.ofNat (5 ^ k)).exponent + k, hb.pos, ?_, ?_⟩
  · have hpower := congrArg (fun x : Float => x.toModel.unpack) (powerOfTen_eq ⟨k, hsize⟩)
    exact hpower.trans hb.unpack_pack
  · have hvalue := Binary.value_ofNat hlt
    rw [Binary.value] at hvalue
    rw [zpow_add₀ two_ne_zero, ← mul_assoc, hvalue, zpow_natCast]
    push_cast
    rw [← mul_pow]
    norm_num

/-! ## Decimals -/

/-- A decimal is read by dividing its digits by a power of ten, unless it is far too small. -/
lemma ofScientific_eq_div {n k : Nat} (hpos : 0 < n) (hk : 0 < k) (hsmall : k ≤ 2048 + n.log2) :
    ∃ m₁ e₁ h₁ m₂ e₂ h₂, Float.ofScientific n true k =
        .ofModel (Float.Model.pack (UnpackedFloat.div Format.binary64
          (.finite .positive m₁ e₁ h₁) (.finite .positive m₂ e₂ h₂))) ∧
      (m₁ * 2 ^ e₁ / (m₂ * 2 ^ e₂) : ℚ) = n / 10 ^ k := by
  rw [Float.ofScientific]
  split
  · next hfast =>
    obtain ⟨m₁, e₁, h₁, hnumber, hvalue₁⟩ := unpack_toFloat hpos hfast.1
    obtain ⟨m₂, e₂, h₂, hpower, hvalue₂⟩ := unpack_powerOfTen (k := k) (Nat.lt_succ_of_le hfast.2)
    refine ⟨m₁, e₁, h₁, m₂, e₂, h₂, ?_, by rw [hvalue₁, hvalue₂]⟩
    rw [← hnumber, ← hpower]
    rfl
  · refine ⟨n, 0, hpos, 10 ^ k, 0, by positivity, ?_, by simp⟩
    obtain ⟨k, rfl⟩ : ∃ j, k = j + 1 := ⟨k - 1, by omega⟩
    have hnegative : Int.negOfNat (k + 1) = -((k : Int) + 1) := rfl
    have hpower : (-(-((k : Int) + 1))).toNat = k + 1 := by omega
    dsimp only
    rw [if_pos rfl, Float.Model.ofScientific, UnpackedFloat.ofScientific, dif_neg hpos.ne',
      if_neg, if_neg, if_neg]
    · simp only [hnegative, hpower]
    · rw [hnegative]
      omega
    · rw [hnegative]
      push_cast
      omega
    · rw [hnegative]
      have hpow : (0 : Int) < 2 ^ Format.binary64.exponentBits := by positivity
      omega

/-- Reading a decimal gives the float that attracts it. -/
theorem ofScientific_eq {x : Float} {b : Binary} (hx : Parts.ofFloat x = .finite false b)
    {n k : Nat} (hk : 0 < k) (h : b.Attracts (n / 10 ^ k)) : Float.ofScientific n true k = x := by
  obtain ⟨hb, _⟩ := Parts.isFloat_and_toNat_of_finite hx
  have hpositive := h.pos hb
  have hten : (0 : ℚ) < 10 ^ k := by positivity
  have hpos : 0 < n := by
    have hcast : (0 : ℚ) < n := by simpa using (div_pos_iff_of_pos_right hten).mp hpositive
    exact_mod_cast hcast
  have hsmall : k ≤ 2048 + n.log2 := by
    by_contra hlarge
    have hlow : (2 : ℚ) ^ (Binary.leastExponent - 1) ≤ n / 10 ^ k := by
      have hone : (1 : ℚ) ≤ b.mantissa := by exact_mod_cast hb.pos
      have hunit : (2 : ℚ) ^ Binary.leastExponent ≤ 2 ^ b.exponent :=
        zpow_le_zpow_right₀ one_le_two hb.least
      have hscaled := (le_div_iff₀ (by positivity)).mp h.scaled.1
      calc (2 : ℚ) ^ (Binary.leastExponent - 1) = 2⁻¹ * 2 ^ Binary.leastExponent := by
            rw [zpow_sub_one₀ two_ne_zero, mul_comm]
        _ ≤ (b.mantissa - 1 / 2) * 2 ^ b.exponent :=
          mul_le_mul (by linarith) hunit (by positivity) (by linarith)
        _ ≤ n / 10 ^ k := hscaled
    have hhigh : (n / 10 ^ k : ℚ) < 2 ^ (Binary.leastExponent - 1) := by
      have hleast : Binary.leastExponent = -1074 := rfl
      have hdigits : (n : ℚ) < 2 ^ (n.log2 + 1) := by exact_mod_cast Nat.lt_log2_self
      have hpower : (2 : ℚ) ^ k ≤ 10 ^ k := pow_le_pow_left₀ (by norm_num) (by norm_num) k
      calc (n / 10 ^ k : ℚ) ≤ n / 2 ^ k :=
            div_le_div_of_nonneg_left (by positivity) (by positivity) hpower
        _ < 2 ^ (n.log2 + 1) / 2 ^ k := div_lt_div_of_pos_right hdigits (by positivity)
        _ = (2 : ℚ) ^ ((n.log2 + 1 : ℕ) - (k : Int)) := by
          rw [zpow_sub₀ two_ne_zero, zpow_natCast, zpow_natCast]
        _ ≤ 2 ^ (Binary.leastExponent - 1) :=
          zpow_le_zpow_right₀ one_le_two (by push_cast; omega)
    exact absurd hlow (not_le_of_gt hhigh)
  obtain ⟨m₁, e₁, h₁, m₂, e₂, h₂, hread, hquotient⟩ := ofScientific_eq_div hpos hk hsmall
  rw [hread, Binary.div_eq hb h₁ h₂ (by rwa [hquotient])]
  exact (Parts.eq_pack_of_finite hx hb.pos).symm

/-! ## Signs -/

lemma hasPlusSign_round (n : Nat) (t : Int) (acc : Accuracy) :
    HasPlusSign (roundWithAccuracy Format.binary64 .positive n t acc) := by
  rw [roundWithAccuracy]
  dsimp only
  split
  · trivial
  · trivial

lemma hasPlusSign_mul {m₁ m₂ : Nat} (e₁ e₂ : Int) (h₁ : 0 < m₁) (h₂ : 0 < m₂) :
    HasPlusSign (UnpackedFloat.mul Format.binary64 (.finite .positive m₁ e₁ h₁)
      (.finite .positive m₂ e₂ h₂)) :=
  hasPlusSign_round (m₁ * m₂) (e₁ + e₂) .exact

lemma hasPlusSign_div {m₁ m₂ : Nat} (e₁ e₂ : Int) (h₁ : 0 < m₁) (h₂ : 0 < m₂) :
    HasPlusSign (UnpackedFloat.div Format.binary64 (.finite .positive m₁ e₁ h₁)
      (.finite .positive m₂ e₂ h₂)) :=
  hasPlusSign_round _ _ _

/-- No decimal is read as a negative float, or as none that is a number. -/
theorem isUnsigned_ofScientific (n : Nat) (negative : Bool) (k : Nat) :
    (Parts.ofFloat (Float.ofScientific n negative k)).IsUnsigned := by
  rw [Float.ofScientific]
  split
  · next hfast =>
    obtain ⟨m₂, e₂, h₂, hpower, -⟩ := unpack_powerOfTen (k := k) (Nat.lt_succ_of_le hfast.2)
    dsimp only
    by_cases hpos : 0 < n
    · obtain ⟨m₁, e₁, h₁, hnumber, -⟩ := unpack_toFloat hpos hfast.1
      split
      · have hquotient := hasPlusSign_div e₁ e₂ h₁ h₂
        rw [← hnumber, ← hpower] at hquotient
        exact Parts.isUnsigned_pack hquotient
      · have hproduct := hasPlusSign_mul e₁ e₂ h₁ h₂
        rw [← hnumber, ← hpower] at hproduct
        exact Parts.isUnsigned_pack hproduct
    · obtain rfl : n = 0 := by omega
      have hzero : (Nat.toUInt64 0).toFloat.toModel.unpack = .zero .positive := rfl
      split
      · have hquotient : HasPlusSign (UnpackedFloat.div Format.binary64 (.zero .positive)
            (.finite .positive m₂ e₂ h₂)) := trivial
        rw [← hzero, ← hpower] at hquotient
        exact Parts.isUnsigned_pack hquotient
      · have hproduct : HasPlusSign (UnpackedFloat.mul Format.binary64 (.zero .positive)
            (.finite .positive m₂ e₂ h₂)) := trivial
        rw [← hzero, ← hpower] at hproduct
        exact Parts.isUnsigned_pack hproduct
  · refine Parts.isUnsigned_pack ?_
    generalize (if negative = true then Int.negOfNat k else Int.ofNat k) = e
    rw [UnpackedFloat.ofScientific]
    split
    · trivial
    · split
      · trivial
      · split
        · trivial
        · split
          · exact hasPlusSign_mul _ _ _ _
          · exact hasPlusSign_div _ _ _ _

end BlockLang.Decimal
