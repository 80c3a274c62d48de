import BlockLang.Proofs.Decimal.Rounding

/-!
# Floats and their bits

`Parts.ofFloat` takes a float apart by its bits, and the arithmetic of floats puts one together
from a sign, a mantissa and an exponent (`Float.Model.pack`).  The two fit: a float with the parts
of a positive number is what this number is packed into (`Parts.eq_pack_of_finite`), and what is
packed with a positive sign has parts without a sign (`Parts.unsigned_pack`).
-/

namespace BlockLang.Decimal

open Float.Model Float.Model.UnpackedFloat

/-! ## Bits -/

lemma toNat_packComponents (e : BitVec 11) (m : BitVec 52) :
    (packComponents Format.binary64 .positive e m).toNat = e.toNat * 2 ^ 52 + m.toNat := by
  have hsign : (Sign.toBitVec .positive ++ e).toNat = e.toNat := by
    rw [BitVec.toNat_append]
    simp [Sign.toBitVec]
  rw [packComponents, BitVec.toNat_append, hsign, ← Nat.shiftLeft_add_eq_or_of_lt m.isLt,
    Nat.shiftLeft_eq]

lemma sign_packComponents {sign : Sign} (e : BitVec 11) (m : BitVec 52) :
    Sign.ofBitVec (unpackSign (packComponents Format.binary64 sign e m)) = sign := by
  simp only [unpackSign, packComponents, BitVec.extractLsb]
  rw [BitVec.extractLsb'_append_eq_of_le (by omega), BitVec.extractLsb'_append_eq_of_le (by omega)]
  cases sign <;> rfl

/-- Behind the exponent of a large number a leading bit is understood. -/
lemma unpack_packComponents_of_large {e : BitVec 11} (m : BitVec 52) (hzero : e.toNat ≠ 0)
    (hlast : e.toNat ≠ 2047) :
    UnpackedFloat.unpack Format.binary64 (packComponents Format.binary64 .positive e m) =
      .finite .positive (2 ^ 52 + m.toNat) (e.toNat - 1075) (by positivity) := by
  have hne : e ≠ -1#11 := fun heq => hlast (by rw [heq]; rfl)
  have hne' : e ≠ 0#11 := fun heq => hzero (by rw [heq]; rfl)
  have hmantissa : (1#1 ++ m).toNat = 2 ^ 52 + m.toNat := by
    rw [BitVec.toNat_append, ← Nat.shiftLeft_add_eq_or_of_lt m.isLt]
    rfl
  rw [UnpackedFloat.unpack]
  simp only [unpackMantissa_packComponents, unpackExponent_packComponents, sign_packComponents]
  rw [if_neg hne, if_neg hne']
  congr 1

/-- Behind the exponent of the small numbers the mantissa is complete. -/
lemma unpack_packComponents_of_small {m : BitVec 52} (hzero : 0 < m.toNat) :
    UnpackedFloat.unpack Format.binary64 (packComponents Format.binary64 .positive 0#11 m) =
      .finite .positive m.toNat (-1074) hzero := by
  have hne : m ≠ 0#52 := fun heq => hzero.ne' (by rw [heq]; rfl)
  rw [UnpackedFloat.unpack]
  simp only [unpackMantissa_packComponents, unpackExponent_packComponents, sign_packComponents]
  rw [if_neg (by decide), if_pos trivial, dif_neg hne]
  rfl

/-- Floats with the same bits are the same. -/
lemma eq_of_toNat_toBits {x y : Float} (h : x.toBits.toNat = y.toBits.toNat) : x = y := by
  obtain ⟨⟨xbits, xvalid⟩⟩ := x
  obtain ⟨⟨ybits, yvalid⟩⟩ := y
  obtain rfl : xbits = ybits := UInt64.toNat_inj.mp h
  rfl

/-- The bits of a float that is packed from a sign, a mantissa and an exponent. -/
lemma toNat_toBits_pack (u : UnpackedFloat) :
    (Float.ofModel (Float.Model.pack u)).toBits.toNat =
      (UnpackedFloat.pack Format.binary64 u).toNat := rfl

namespace Binary

/-- The bits of a positive float. -/
def code (b : Binary) : Nat :=
  if b.mantissa < 2 ^ 52 then b.mantissa
  else (b.exponent + 1075).toNat * 2 ^ 52 + (b.mantissa - 2 ^ 52)

variable {b : Binary}

/-- The floats below the smallest one with all bits in its mantissa. -/
lemma isFloat_of_small {fraction : Nat} (hpos : 0 < fraction) (hlt : fraction < 2 ^ 52) :
    IsFloat ⟨fraction, leastExponent⟩ ∧ code ⟨fraction, leastExponent⟩ = fraction := by
  refine ⟨⟨hpos, ?_, le_rfl, ?_, absurd rfl⟩, if_pos hlt⟩
  · exact hlt.trans (by norm_num)
  · exact (by decide : leastExponent ≤ 971)

/-- The floats that have a leading bit in front of the fraction. -/
lemma isFloat_of_large {fraction exponent : Nat} (hlt : fraction < 2 ^ 52)
    (hpos : 0 < exponent) (hlast : exponent < 2047) :
    IsFloat ⟨2 ^ 52 + fraction, leastExponent - 1 + exponent⟩ ∧
      code ⟨2 ^ 52 + fraction, leastExponent - 1 + exponent⟩ = exponent * 2 ^ 52 + fraction := by
  have hleast : leastExponent = -1074 := rfl
  have hcode : (leastExponent - 1 + exponent + 1075).toNat = exponent := by omega
  have hfraction : 2 ^ 52 + fraction - 2 ^ 52 = fraction := by omega
  refine ⟨⟨?_, ?_, ?_, ?_, fun _ => ?_⟩, ?_⟩
  · exact Nat.add_pos_left (by norm_num) _
  · exact (by omega : 2 ^ 52 + fraction < 2 ^ 53)
  · exact (by omega : leastExponent ≤ leastExponent - 1 + exponent)
  · exact (by omega : leastExponent - 1 + exponent ≤ 971)
  · exact Nat.le_add_right _ _
  · rw [code, if_neg (by exact (by omega : ¬ 2 ^ 52 + fraction < 2 ^ 52)), hcode, hfraction]

lemma IsFloat.log2_add_one_eq_iff (hb : b.IsFloat) :
    b.mantissa.log2 + 1 = Format.binary64.mantissaBits ↔ 2 ^ 52 ≤ b.mantissa := by
  have hlt : b.mantissa.log2 < 53 := (Nat.log2_lt hb.pos.ne').mpr hb.lt
  have hle : 52 ≤ b.mantissa.log2 ↔ 2 ^ 52 ≤ b.mantissa := Nat.le_log2 hb.pos.ne'
  have hbits : Format.binary64.mantissaBits = 53 := rfl
  rw [hbits, ← hle]
  omega

lemma exponentBias_eq : Format.binary64.exponentBias = 1023 := rfl

/-- A positive float is packed into its exponent and its mantissa without the leading bit. -/
lemma IsFloat.toNat_pack (hb : b.IsFloat) :
    (UnpackedFloat.pack Format.binary64
      (.finite .positive b.mantissa b.exponent hb.pos)).toNat = b.code := by
  have hleast := hb.least
  have hgreatest := hb.greatest
  have hlt := hb.lt
  have hpos := hb.pos
  rw [leastExponent] at hleast
  rw [UnpackedFloat.pack]
  simp only [hb.log2_add_one_eq_iff, exponentBias_eq]
  rw [if_neg (by omega), code]
  by_cases hfull : 2 ^ 52 ≤ b.mantissa
  · rw [if_pos hfull, if_neg (by omega), toNat_packComponents, BitVec.toNat_ofNat,
      BitVec.toNat_ofNat, Nat.mod_eq_of_lt (by omega)]
    omega
  · rw [if_neg hfull, if_pos (by omega), toNat_packComponents, BitVec.toNat_ofNat,
      BitVec.toNat_ofNat, Nat.mod_eq_of_lt (by omega)]
    omega

/-- Packing loses nothing of a positive float. -/
lemma IsFloat.unpack_pack (hb : b.IsFloat) :
    (Float.Model.pack (.finite .positive b.mantissa b.exponent hb.pos)).unpack =
      .finite .positive b.mantissa b.exponent hb.pos := by
  have hleast := hb.least
  have hgreatest := hb.greatest
  have hlt := hb.lt
  have hpos := hb.pos
  rw [leastExponent] at hleast
  change UnpackedFloat.unpack Format.binary64 (UnpackedFloat.pack Format.binary64 _) = _
  rw [UnpackedFloat.pack]
  simp only [hb.log2_add_one_eq_iff, exponentBias_eq]
  rw [if_neg (by omega)]
  by_cases hfull : 2 ^ 52 ≤ b.mantissa
  · have hexponent : (BitVec.ofNat 11 (b.exponent + (1023 : ℕ) + (52 : ℕ)).toNat).toNat =
        (b.exponent + 1075).toNat := by
      rw [BitVec.toNat_ofNat]
      omega
    have hmantissa : 2 ^ 52 + (BitVec.ofNat 52 b.mantissa).toNat = b.mantissa := by
      rw [BitVec.toNat_ofNat]
      omega
    rw [if_pos hfull, unpack_packComponents_of_large _ (by omega) (by omega)]
    simp only [hmantissa, hexponent]
    congr 1
    omega
  · have hmantissa : (BitVec.ofNat 52 b.mantissa).toNat = b.mantissa := by
      rw [BitVec.toNat_ofNat]
      omega
    have hexponent : b.exponent = -1074 := by
      by_contra hne
      exact hfull (hb.full hne)
    rw [if_neg hfull, unpack_packComponents_of_small (by omega)]
    simp only [hmantissa, hexponent]

end Binary

/-! ## Parts -/

namespace Parts

variable {x : Float} {b : Binary}

/-- The parts of a float determine its bits, of which the first is the sign. -/
lemma isFloat_and_toNat_of_signed {negative : Bool} (h : ofFloat x = .finite negative b) :
    b.IsFloat ∧ x.toBits.toNat = (if negative then 2 ^ 63 else 0) + b.code := by
  have hbits : x.toBits.toNat < 2 ^ 64 := x.toBits.toNat_lt
  simp only [ofFloat] at h
  split at h
  · split at h <;> cases h
  · next hexponent =>
    split at h
    · next hzero =>
      split at h
      · cases h
      · next hfraction =>
        simp only [finite.injEq, Nat.pow_eq] at *
        obtain ⟨rfl, rfl⟩ := h
        obtain ⟨hfloat, hcode⟩ := Binary.isFloat_of_small (Nat.pos_of_ne_zero hfraction)
          (Nat.mod_lt x.toBits.toNat (by norm_num))
        refine ⟨hfloat, ?_⟩
        rw [hcode]
        simp only [decide_eq_true_eq]
        split <;> omega
    · next hnormal =>
      simp only [finite.injEq, Nat.pow_eq] at *
      obtain ⟨rfl, rfl⟩ := h
      obtain ⟨hfloat, hcode⟩ := Binary.isFloat_of_large
        (Nat.mod_lt x.toBits.toNat (by norm_num : 0 < 2 ^ 52)) (Nat.pos_of_ne_zero hnormal)
        (by omega : x.toBits.toNat / 2 ^ 52 % 2 ^ 11 < 2047)
      refine ⟨hfloat, ?_⟩
      rw [Int.ofNat_eq_natCast, hcode]
      simp only [decide_eq_true_eq]
      split <;> omega

/-- The parts of a positive float determine its bits. -/
lemma isFloat_and_toNat_of_finite (h : ofFloat x = .finite false b) :
    b.IsFloat ∧ x.toBits.toNat = b.code := by
  simpa using isFloat_and_toNat_of_signed h

/-- A float with the parts of a positive number is what this number is packed into. -/
lemma eq_pack_of_finite (h : ofFloat x = .finite false b) (hpos : 0 < b.mantissa) :
    x = .ofModel (Float.Model.pack (.finite .positive b.mantissa b.exponent hpos)) := by
  obtain ⟨hb, hcode⟩ := isFloat_and_toNat_of_finite h
  refine eq_of_toNat_toBits ?_
  rw [toNat_toBits_pack, hb.toNat_pack, hcode]

/-- The bits of a zero are clear except for the sign. -/
lemma toNat_of_zero {negative : Bool} (h : ofFloat x = .zero negative) :
    x.toBits.toNat = if negative then 2 ^ 63 else 0 := by
  have hbits : x.toBits.toNat < 2 ^ 64 := x.toBits.toNat_lt
  simp only [ofFloat] at h
  split at h
  · split at h <;> cases h
  · split at h
    · split at h
      · simp only [zero.injEq, Nat.pow_eq] at *
        subst h
        simp only [decide_eq_true_eq]
        split <;> omega
      · cases h
    · cases h

/-- The bits of an infinity are those of the exponent and perhaps the sign. -/
lemma toNat_of_infinite {negative : Bool} (h : ofFloat x = .infinite negative) :
    x.toBits.toNat = (if negative then 2 ^ 63 else 0) + 2047 * 2 ^ 52 := by
  have hbits : x.toBits.toNat < 2 ^ 64 := x.toBits.toNat_lt
  simp only [ofFloat] at h
  split at h
  · split at h
    · simp only [infinite.injEq, Nat.pow_eq] at *
      subst h
      simp only [decide_eq_true_eq]
      split <;> omega
    · cases h
  · split at h
    · split at h <;> cases h
    · cases h

/-- The zero without a sign. -/
lemma eq_pack_of_zero (h : ofFloat x = .zero false) :
    x = .ofModel (Float.Model.pack (.zero .positive)) := by
  refine eq_of_toNat_toBits ?_
  rw [toNat_of_zero h, toNat_toBits_pack]
  rfl

/-- The parts of a number determine it. -/
lemma eq_of_ofFloat {y : Float} (h : ofFloat x = ofFloat y) (hnumber : ofFloat x ≠ .nan) :
    x = y := by
  refine eq_of_toNat_toBits ?_
  cases hx : ofFloat x with
  | nan => exact absurd hx hnumber
  | infinite negative => rw [toNat_of_infinite hx, toNat_of_infinite (h.symm.trans hx)]
  | zero negative => rw [toNat_of_zero hx, toNat_of_zero (h.symm.trans hx)]
  | finite negative size =>
    rw [(isFloat_and_toNat_of_signed hx).2, (isFloat_and_toNat_of_signed (h.symm.trans hx)).2]

/-! ## Signs -/

/-- A zero, a number or an infinity, and none of them negative. -/
def IsUnsigned (parts : Parts) : Prop :=
  parts = .zero false ∨ (∃ size, parts = .finite false size) ∨ parts = .infinite false

/-- Bits with a clear sign that do not say that there is no number. -/
lemma isUnsigned_of_toNat_toBits {e m : Nat} (he : e < 2 ^ 11) (hm : m < 2 ^ 52)
    (hnumber : e = 2047 → m = 0) (h : x.toBits.toNat = e * 2 ^ 52 + m) :
    (ofFloat x).IsUnsigned := by
  have hsign : ¬ x.toBits.toNat / Nat.pow 2 63 = 1 := by
    rw [Nat.pow_eq]
    omega
  have hexponent : x.toBits.toNat / Nat.pow 2 52 % Nat.pow 2 11 = e := by
    rw [Nat.pow_eq, Nat.pow_eq]
    omega
  have hfraction : x.toBits.toNat % Nat.pow 2 52 = m := by
    rw [Nat.pow_eq]
    omega
  simp only [ofFloat, hsign, hexponent, hfraction, decide_false, Nat.pow_eq]
  by_cases hlast : e = 2047
  · rw [if_pos (by omega), if_pos (hnumber hlast)]
    exact .inr (.inr rfl)
  · rw [if_neg (by omega)]
    by_cases hzero : e = 0
    · rw [if_pos hzero]
      by_cases hm0 : m = 0
      · rw [if_pos hm0]
        exact .inl rfl
      · rw [if_neg hm0]
        exact .inr (.inl ⟨_, rfl⟩)
    · rw [if_neg hzero]
      exact .inr (.inl ⟨_, rfl⟩)

lemma isUnsigned_of_packComponents {e : BitVec 11} {m : BitVec 52}
    (hnumber : e.toNat = 2047 → m = 0)
    (h : x.toBits.toNat = (packComponents Format.binary64 .positive e m).toNat) :
    (ofFloat x).IsUnsigned := by
  rw [toNat_packComponents] at h
  exact isUnsigned_of_toNat_toBits e.isLt m.isLt (fun he => by rw [hnumber he]; rfl) h

end Parts

/-- The result of a computation is a zero, a number or an infinity, and not negative. -/
def HasPlusSign : UnpackedFloat → Prop
  | .infinity .positive | .zero .positive | .finite .positive .. => True
  | _ => False

/-- What is computed with a positive sign is a float without a sign. -/
lemma Parts.isUnsigned_pack {u : UnpackedFloat} (hu : HasPlusSign u) :
    (ofFloat (.ofModel (Float.Model.pack u))).IsUnsigned := by
  have hbits := toNat_toBits_pack u
  cases u with
  | notANumber => exact hu.elim
  | infinity sign =>
    cases sign with
    | negative => exact hu.elim
    | positive => exact isUnsigned_of_packComponents (fun _ => rfl) hbits
  | zero sign =>
    cases sign with
    | negative => exact hu.elim
    | positive => exact isUnsigned_of_packComponents (fun _ => rfl) hbits
  | finite sign m e hm =>
    cases sign with
    | negative => exact hu.elim
    | positive =>
      rw [UnpackedFloat.pack] at hbits
      dsimp only at hbits
      split at hbits
      · exact isUnsigned_of_packComponents (fun _ => rfl) hbits
      · next hsmall =>
        split at hbits
        · refine isUnsigned_of_packComponents (fun hlast => ?_) hbits
          rw [BitVec.toNat_ofNat] at hlast
          have hmod := Nat.mod_le (e + Format.binary64.exponentBias + (52 : ℕ)).toNat (2 ^ 11)
          omega
        · exact isUnsigned_of_packComponents (fun hlast => absurd hlast (by decide)) hbits

end BlockLang.Decimal
