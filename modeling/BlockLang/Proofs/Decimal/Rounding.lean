import BlockLang.Decimal.Binary
import Mathlib

/-!
# Rounding to the nearest float

The arithmetic of floats computes a result as a mantissa of enough bits with a note about what was
cut off behind it (`Represents`), and then rounds it to a mantissa of fifty-three bits.  A positive
float `b` attracts the numbers that are nearer to it than to its neighbours
(`Binary.Attracts`); the midpoints belong to the float whose mantissa is even.

`Binary.roundWithAccuracy_eq` is the correctness of rounding: what represents a number that `b`
attracts is rounded to `b`, whatever the mantissa was that the result came with.
`Binary.div_eq` is that for quotients, which is how decimals are read.
-/

namespace BlockLang.Decimal

open Float.Model Float.Model.UnpackedFloat

/-! ## Mantissas with a remainder -/

/-- A mantissa and its two residual bits stand for the number `x`: the first bit says whether a
half or more is behind the mantissa, the second one whether there is anything else. -/
def Represents (em : ExtendedMantissa) (x : ℚ) : Prop :=
  match em.roundBit, em.stickyBit with
  | false, false => x = em.mantissa
  | false, true => (em.mantissa : ℚ) < x ∧ x < em.mantissa + 1 / 2
  | true, false => x = em.mantissa + 1 / 2
  | true, true => (em.mantissa : ℚ) + 1 / 2 < x ∧ x < em.mantissa + 1

namespace Represents

variable {em : ExtendedMantissa} {x : ℚ}

/-- The mantissa is what is in front of the point. -/
lemma floor (h : Represents em x) : (em.mantissa : ℚ) ≤ x ∧ x < em.mantissa + 1 := by
  obtain ⟨m, round, sticky⟩ := em
  cases round <;> cases sticky <;> simp only [Represents] at h ⊢ <;> constructor <;> linarith

/-- Half the number is represented by the mantissa without its last bit. -/
lemma half (h : Represents em x) : Represents em.shiftRightOne (x / 2) := by
  obtain ⟨m, round, sticky⟩ := em
  have hparts : (m : ℚ) = 2 * (m / 2 : ℕ) + (m % 2 : ℕ) := by
    exact_mod_cast (Nat.div_add_mod m 2).symm
  obtain hbit | hbit := Nat.mod_two_eq_zero_or_one m
  · rw [hbit, Nat.cast_zero] at hparts
    cases round <;> cases sticky <;>
      simp only [Represents, ExtendedMantissa.shiftRightOne, hbit, bne_self_eq_false,
        Bool.or_true, Bool.or_false] at h ⊢ <;>
      first | linarith | constructor <;> linarith
  · rw [hbit, Nat.cast_one] at hparts
    cases round <;> cases sticky <;>
      simp only [Represents, ExtendedMantissa.shiftRightOne, hbit, Bool.or_true, Bool.or_false,
        show (1 != 0) = true from rfl] at h ⊢ <;>
      first | linarith | constructor <;> linarith

lemma shift (h : Represents em x) (k : Nat) : Represents (em >>> k) (x / 2 ^ k) := by
  change Represents (k.repeat ExtendedMantissa.shiftRightOne em) _
  induction k with
  | zero => simpa [Nat.repeat] using h
  | succ k ih =>
    rw [Nat.repeat, pow_succ, ← div_div]
    exact ih.half

/-- A remainder that is noted exactly. -/
lemma ofFraction (m : Nat) {num den : Nat} (hlt : num < den) :
    Represents (.ofMantissaAndAccuracy m (accuracyOfFraction num den)) (m + num / den) := by
  have hden : (0 : ℚ) < den := by exact_mod_cast Nat.zero_lt_of_lt hlt
  have hone : (num : ℚ) / den < 1 := by
    rw [div_lt_one hden]
    exact_mod_cast hlt
  rw [accuracyOfFraction]
  split
  · next hzero => simp [Represents, ExtendedMantissa.ofMantissaAndAccuracy, hzero]
  · next hne =>
    have hpos : (0 : ℚ) < num / den := div_pos (by exact_mod_cast Nat.pos_of_ne_zero hne) hden
    cases hcompare : compare (2 * num) den with
    | lt =>
      have hhalf : (num : ℚ) / den < 1 / 2 := by
        rw [div_lt_div_iff₀ hden (by norm_num)]
        have hnat := Nat.compare_eq_lt.mp hcompare
        have hcast : (2 * num : ℚ) < den := by exact_mod_cast hnat
        linarith
      exact ⟨by simpa [ExtendedMantissa.ofMantissaAndAccuracy] using hpos,
        by simpa [ExtendedMantissa.ofMantissaAndAccuracy] using hhalf⟩
    | eq =>
      have hhalf : (num : ℚ) / den = 1 / 2 := by
        rw [div_eq_div_iff hden.ne' (by norm_num)]
        have hnat := Nat.compare_eq_eq.mp hcompare
        have hcast : (2 * num : ℚ) = den := by exact_mod_cast hnat
        linarith
      simp only [Represents, ExtendedMantissa.ofMantissaAndAccuracy, hhalf]
    | gt =>
      have hhalf : (1 : ℚ) / 2 < num / den := by
        rw [div_lt_div_iff₀ (by norm_num) hden]
        have hnat := Nat.compare_eq_gt.mp hcompare
        have hcast : (den : ℚ) < 2 * num := by exact_mod_cast hnat
        linarith
      exact ⟨by simpa [ExtendedMantissa.ofMantissaAndAccuracy] using hhalf,
        by simpa [ExtendedMantissa.ofMantissaAndAccuracy] using hone⟩

/-- A number is rounded to the nearest natural one, a midpoint to the even neighbour. -/
lemma rounded_eq (h : Represents em x) {n : Nat} (hlow : (n : ℚ) - 1 / 2 ≤ x)
    (hhigh : x ≤ n + 1 / 2) (hodd : n % 2 = 1 → (n : ℚ) - 1 / 2 < x ∧ x < n + 1 / 2) :
    em.roundedMantissa = n := by
  obtain ⟨m, round, sticky⟩ := em
  cases round <;> cases sticky <;> simp only [Represents] at h <;>
    simp only [ExtendedMantissa.roundedMantissa, ExtendedMantissa.accuracy,
      Accuracy.roundToNearestEven]
  · have hle : (n : ℚ) < m + 1 := by linarith
    have hge : (m : ℚ) < n + 1 := by linarith
    norm_cast at hle hge
    omega
  · have hle : (n : ℚ) < m + 1 := by linarith
    have hge : (m : ℚ) < n + 1 := by linarith
    norm_cast at hle hge
    omega
  · have hle : (n : ℚ) ≤ m + 1 := by linarith
    have hge : (m : ℚ) ≤ n := by linarith
    norm_cast at hle hge
    have heven : n % 2 ≠ 1 := by
      intro hbit
      obtain ⟨hlow', hhigh'⟩ := hodd hbit
      have hle' : (n : ℚ) < m + 1 := by linarith
      have hge' : (m : ℚ) < n := by linarith
      norm_cast at hle' hge'
      omega
    omega
  · have hle : (n : ℚ) < m + 2 := by linarith
    have hge : (m : ℚ) < n := by linarith
    norm_cast at hle hge
    omega

end Represents

/-! ## Positive floats -/

namespace Binary

/-- The exact value. -/
def value (b : Binary) : ℚ :=
  b.mantissa * 2 ^ b.exponent

/-- Mantissa and exponent are those of a positive float: the mantissa has fifty-three bits, and
fewer only at the smallest exponent. -/
structure IsFloat (b : Binary) : Prop where
  pos : 0 < b.mantissa
  lt : b.mantissa < 2 ^ 53
  least : leastExponent ≤ b.exponent
  greatest : b.exponent ≤ 971
  full : b.exponent ≠ leastExponent → 2 ^ 52 ≤ b.mantissa

/-- A number is nearest to the float, or as near as to a neighbour with an odd mantissa. -/
structure Attracts (b : Binary) (x : ℚ) : Prop where
  low : (b.mantissa - if b.isNarrowBelow then 1 / 4 else 1 / 2) * 2 ^ b.exponent ≤ x
  high : x ≤ (b.mantissa + 1 / 2) * 2 ^ b.exponent
  strict : b.mantissa % 2 = 1 →
    (b.mantissa - if b.isNarrowBelow then 1 / 4 else 1 / 2) * 2 ^ b.exponent < x ∧
      x < (b.mantissa + 1 / 2) * 2 ^ b.exponent

variable {b : Binary} {x : ℚ}

/-- The value of a float is nearest to the float. -/
lemma attracts_value (b : Binary) : b.Attracts b.value := by
  have hpower : (0 : ℚ) < 2 ^ b.exponent := by positivity
  have hgap : (0 : ℚ) < if b.isNarrowBelow then 1 / 4 else 1 / 2 := by split <;> norm_num
  have hlow : (b.mantissa - if b.isNarrowBelow then 1 / 4 else 1 / 2) * 2 ^ b.exponent < b.value :=
    mul_lt_mul_of_pos_right (by linarith) hpower
  have hhigh : b.value < (b.mantissa + 1 / 2) * 2 ^ b.exponent :=
    mul_lt_mul_of_pos_right (by linarith) hpower
  exact ⟨hlow.le, hhigh.le, fun _ => ⟨hlow, hhigh⟩⟩

namespace Attracts

/-- In units of the last bit of the mantissa. -/
lemma scaled (h : b.Attracts x) : (b.mantissa : ℚ) - 1 / 2 ≤ x / 2 ^ b.exponent ∧
    x / 2 ^ b.exponent ≤ b.mantissa + 1 / 2 ∧
    (b.mantissa % 2 = 1 → (b.mantissa : ℚ) - 1 / 2 < x / 2 ^ b.exponent ∧
      x / 2 ^ b.exponent < b.mantissa + 1 / 2) := by
  have hpower : (0 : ℚ) < 2 ^ b.exponent := by positivity
  have hgap : (if b.isNarrowBelow then 1 / 4 else 1 / 2 : ℚ) ≤ 1 / 2 := by split <;> norm_num
  have hlow := (le_div_iff₀ hpower).mpr h.low
  have hhigh := (div_le_iff₀ hpower).mpr h.high
  refine ⟨by linarith, hhigh, fun hodd => ?_⟩
  obtain ⟨hlow', hhigh'⟩ := h.strict hodd
  have hlow'' := (lt_div_iff₀ hpower).mpr hlow'
  exact ⟨by linarith, (div_lt_iff₀ hpower).mpr hhigh'⟩

lemma pos (h : b.Attracts x) (hb : b.IsFloat) : 0 < x := by
  have hpower : (0 : ℚ) < 2 ^ b.exponent := by positivity
  have hone : (1 : ℚ) ≤ b.mantissa := by exact_mod_cast hb.pos
  have hscaled : 0 < x / 2 ^ b.exponent := by linarith [h.scaled.1]
  exact (div_pos_iff_of_pos_right hpower).mp hscaled

/-- Below the next power of two. -/
lemma lt_two_zpow (h : b.Attracts x) {k : Nat} (hk : b.mantissa < 2 ^ k) :
    x < 2 ^ ((k : Int) + b.exponent) := by
  have hpower : (0 : ℚ) < 2 ^ b.exponent := by positivity
  have hle : (b.mantissa : ℚ) + 1 ≤ 2 ^ k := by exact_mod_cast hk
  rw [zpow_add₀ two_ne_zero, zpow_natCast]
  have hhigh := (div_le_iff₀ hpower).mp h.scaled.2.1
  exact hhigh.trans_lt (mul_lt_mul_of_pos_right (by linarith) hpower)

/-- Only the numbers below a power of two are attracted from the other side of it. -/
lemma mantissa_eq (h : b.Attracts x) (hb : b.IsFloat) (hnormal : b.exponent ≠ leastExponent)
    (hlt : x < 2 ^ (52 + b.exponent)) : b.mantissa = 2 ^ 52 := by
  have hpower : (0 : ℚ) < 2 ^ b.exponent := by positivity
  have hfull := hb.full hnormal
  rw [zpow_add₀ two_ne_zero] at hlt
  have hscaled := (div_lt_iff₀ hpower).mpr hlt
  have hmantissa : (b.mantissa : ℚ) < 2 ^ 52 + 1 := by
    have hpow : (2 : ℚ) ^ (52 : ℤ) = 2 ^ 52 := by norm_num
    rw [hpow] at hscaled
    linarith [h.scaled.1]
  norm_cast at hmantissa
  omega

end Attracts

/-! ## Which bits are kept -/

lemma targetExponent_eq (total : Int) :
    Format.binary64.targetExponent total = max (total - 53) leastExponent := rfl

/-- A number below a power of two has no bits from there on. -/
lemma lt_of_two_zpow_le {p q : Int} (hlow : (2 : ℚ) ^ p ≤ x) (hhigh : x < 2 ^ q) : p < q :=
  (zpow_lt_zpow_iff_right₀ one_lt_two).mp (hlow.trans_lt hhigh)

section Bits

variable {n : Nat} {t p : Int}

/-- The bits of a number between two powers of two, up to the place `t`. -/
lemma totalExponent_eq (hfloor : (n : ℚ) ≤ x / 2 ^ t ∧ x / 2 ^ t < n + 1)
    (hlow : (2 : ℚ) ^ (p - 1) ≤ x) (hhigh : x < 2 ^ p) (ht : t ≤ p - 1) :
    totalExponent n t = p := by
  obtain ⟨k, rfl⟩ : ∃ k : Nat, p = k + 1 + t := ⟨(p - 1 - t).toNat, by omega⟩
  have hpower : (0 : ℚ) < 2 ^ t := by positivity
  have hlow' : (2 : ℚ) ^ k ≤ x / 2 ^ t := by
    rw [le_div_iff₀ hpower, ← zpow_natCast, ← zpow_add₀ two_ne_zero]
    rwa [show (k : Int) + 1 + t - 1 = k + t by ring] at hlow
  have hhigh' : x / 2 ^ t < (2 : ℚ) ^ (k + 1) := by
    rw [div_lt_iff₀ hpower, ← zpow_natCast, ← zpow_add₀ two_ne_zero]
    exact_mod_cast hhigh
  have hge : (2 : ℚ) ^ k < n + 1 := by linarith
  have hlt : (n : ℚ) < 2 ^ (k + 1) := by linarith
  norm_cast at hge hlt
  have hne : n ≠ 0 := by
    have := Nat.two_pow_pos k
    omega
  have hlog : n.log2 = k := (Nat.log2_eq_iff hne).mpr ⟨by omega, hlt⟩
  rw [totalExponent, hlog]

/-- A number below a power of two has no more bits than that. -/
lemma totalExponent_le (hfloor : (n : ℚ) ≤ x / 2 ^ t ∧ x / 2 ^ t < n + 1)
    (hhigh : x < 2 ^ p) (ht : t < p) : totalExponent n t ≤ p := by
  obtain ⟨k, rfl⟩ : ∃ k : Nat, p = k + 1 + t := ⟨(p - 1 - t).toNat, by omega⟩
  have hpower : (0 : ℚ) < 2 ^ t := by positivity
  have hhigh' : x / 2 ^ t < (2 : ℚ) ^ (k + 1) := by
    rw [div_lt_iff₀ hpower, ← zpow_natCast, ← zpow_add₀ two_ne_zero]
    exact_mod_cast hhigh
  have hlt : (n : ℚ) < 2 ^ (k + 1) := by linarith
  norm_cast at hlt
  rw [totalExponent]
  by_cases hne : n = 0
  · subst hne
    simp only [Nat.log2_zero]
    omega
  · have hlog := (Nat.log2_lt hne).mpr hlt
    omega

end Bits

/-! ## Rounding -/

/-- To the place where the mantissa belongs. -/
lemma shiftToTargetExponent_eq {n : Nat} {t target : Int} (acc : Accuracy)
    (htarget : Format.binary64.targetExponent (totalExponent n t) = target) (ht : t ≤ target) :
    shiftToTargetExponent Format.binary64 n t acc =
      (ExtendedMantissa.ofMantissaAndAccuracy n acc >>> (target - t).toNat, target) := by
  rw [shiftToTargetExponent, htarget, shiftToExponent]
  simp only [Prod.mk.injEq, true_and]
  omega

lemma shiftRight_zero (em : ExtendedMantissa) : em >>> 0 = em := rfl

lemma represents_shift {n : Nat} {t target : Int} {acc : Accuracy}
    (h : Represents (.ofMantissaAndAccuracy n acc) (x / 2 ^ t)) (ht : t ≤ target) :
    Represents (ExtendedMantissa.ofMantissaAndAccuracy n acc >>> (target - t).toNat)
      (x / 2 ^ target) := by
  obtain ⟨k, rfl⟩ : ∃ k : Nat, target = t + k := ⟨(target - t).toNat, by omega⟩
  have hk : (t + k - t).toNat = k := by omega
  rw [hk, zpow_add₀ two_ne_zero, ← div_div, zpow_natCast]
  exact h.shift k

/-- A mantissa that has its fifty-three bits stays as it is. -/
lemma IsFloat.targetExponent_eq (hb : b.IsFloat) :
    Format.binary64.targetExponent (totalExponent b.mantissa b.exponent) = b.exponent := by
  have hlog : b.mantissa.log2 < 53 := (Nat.log2_lt hb.pos.ne').mpr hb.lt
  have hleast := hb.least
  rw [Binary.targetExponent_eq, totalExponent]
  by_cases hexp : b.exponent = leastExponent
  · rw [hexp]
    omega
  · have hlog' : 52 ≤ b.mantissa.log2 := (Nat.le_log2 hb.pos.ne').mpr (hb.full hexp)
    omega

/-- Rounding ends when the bits that are kept are those of the float. -/
lemma IsFloat.round_of_rounded (hb : b.IsFloat) {n : Nat} {t : Int} {acc : Accuracy}
    {em : ExtendedMantissa} (hshift :
      shiftToTargetExponent Format.binary64 n t acc = (em, b.exponent))
    (hrounded : em.roundedMantissa = b.mantissa) (sign : Sign) :
    roundWithAccuracy Format.binary64 sign n t acc =
      .finite sign b.mantissa b.exponent hb.pos := by
  have hagain := shiftToTargetExponent_eq .exact hb.targetExponent_eq le_rfl
  have hzero : (b.exponent - b.exponent).toNat = 0 := by omega
  rw [roundWithAccuracy]
  simp only [hshift, hrounded, hagain, hzero, shiftRight_zero,
    ExtendedMantissa.ofMantissaAndAccuracy, hb.pos.ne', dif_neg, not_false_eq_true]

/-- Rounding up to a power of two, which takes one bit more than there is room for. -/
lemma IsFloat.round_of_carried (hb : b.IsFloat) (hmantissa : b.mantissa = 2 ^ 52)
    {n : Nat} {t : Int} {acc : Accuracy} {em : ExtendedMantissa} (hshift :
      shiftToTargetExponent Format.binary64 n t acc = (em, b.exponent - 1))
    (hrounded : em.roundedMantissa = 2 ^ 53) (sign : Sign) :
    roundWithAccuracy Format.binary64 sign n t acc =
      .finite sign b.mantissa b.exponent hb.pos := by
  have hleast := hb.least
  have htarget : Format.binary64.targetExponent (totalExponent (2 ^ 53) (b.exponent - 1)) =
      b.exponent := by
    rw [Binary.targetExponent_eq, totalExponent, Nat.log2_two_pow]
    omega
  have hagain := shiftToTargetExponent_eq .exact htarget (by omega)
  have hone : (b.exponent - (b.exponent - 1)).toNat = 1 := by omega
  have hhalf : (ExtendedMantissa.ofMantissaAndAccuracy (2 ^ 53) .exact >>> 1).mantissa = 2 ^ 52 :=
    rfl
  rw [roundWithAccuracy]
  simp only [hshift, hrounded, hagain, hone, hhalf]
  rw [dif_neg (by norm_num)]
  simp only [hmantissa]

/-- What represents a number that a float attracts is rounded to this float.  The mantissa `n` must
not have been cut off too early: its last place `t` is one that a number with the highest bit of
`x` keeps. -/
theorem roundWithAccuracy_eq (hb : b.IsFloat) (hx : b.Attracts x) {n : Nat} {t total : Int}
    {acc : Accuracy} (h : Represents (.ofMantissaAndAccuracy n acc) (x / 2 ^ t))
    (htotal : (2 : ℚ) ^ (total - 1) ≤ x) (ht : t ≤ Format.binary64.targetExponent total)
    (sign : Sign) :
    roundWithAccuracy Format.binary64 sign n t acc =
      .finite sign b.mantissa b.exponent hb.pos := by
  have hfloor := h.floor
  have hleast := hb.least
  rw [targetExponent_eq] at ht
  have hmantissa : (ExtendedMantissa.ofMantissaAndAccuracy n acc).mantissa = n := by
    cases acc with
    | exact => rfl
    | inexact order => cases order <;> rfl
  rw [hmantissa] at hfloor
  have keeps (htarget : Format.binary64.targetExponent (totalExponent n t) = b.exponent)
      (ht : t ≤ b.exponent) : roundWithAccuracy Format.binary64 sign n t acc =
        .finite sign b.mantissa b.exponent hb.pos := by
    obtain ⟨hlow, hhigh, hodd⟩ := hx.scaled
    exact hb.round_of_rounded (shiftToTargetExponent_eq acc htarget ht)
      ((represents_shift h ht).rounded_eq hlow hhigh hodd) sign
  by_cases hsmall : x < 2 ^ (52 + b.exponent)
  · have hbits : total - 1 < 52 + b.exponent := lt_of_two_zpow_le htotal hsmall
    by_cases hexp : b.exponent = leastExponent
    · -- Among the smallest floats all numbers are cut off at the same place.
      have hle := totalExponent_le (p := 52 + b.exponent) hfloor hsmall (by omega)
      refine keeps ?_ (by omega)
      rw [targetExponent_eq]
      omega
    · -- Just below a power of two one more bit is kept, and rounding carries it over.
      have hpower := hx.mantissa_eq hb hexp hsmall
      have hnarrow : b.isNarrowBelow = true := by
        simp only [isNarrowBelow, hpower, Bool.and_eq_true, decide_eq_true_eq]
        exact ⟨rfl, by omega⟩
      have hunit : (0 : ℚ) < 2 ^ (b.exponent - 1) := by positivity
      have hdouble : (2 : ℚ) ^ b.exponent = 2 * 2 ^ (b.exponent - 1) := by
        rw [← zpow_one_add₀ two_ne_zero]
        congr 1
        ring
      have hlow : (2 ^ 53 - 1 / 2 : ℚ) * 2 ^ (b.exponent - 1) ≤ x := by
        have hlow := hx.low
        rw [hnarrow, hpower, hdouble] at hlow
        norm_num at hlow ⊢
        linarith
      have hhigh : x < (2 ^ 53 : ℚ) * 2 ^ (b.exponent - 1) := by
        rw [zpow_add₀ two_ne_zero, hdouble] at hsmall
        norm_num at hsmall ⊢
        linarith
      have htop : (2 : ℚ) ^ (52 + b.exponent - 1) ≤ x := by
        refine le_trans ?_ hlow
        rw [show 52 + b.exponent - 1 = 52 + (b.exponent - 1) by ring, zpow_add₀ two_ne_zero]
        exact mul_le_mul_of_nonneg_right (by norm_num) hunit.le
      have htotal' := totalExponent_eq hfloor htop hsmall (by omega)
      have htarget : Format.binary64.targetExponent (totalExponent n t) = b.exponent - 1 := by
        rw [htotal', targetExponent_eq]
        omega
      have hscaled := represents_shift h (show t ≤ b.exponent - 1 by omega)
      have hlow' := (le_div_iff₀ hunit).mpr hlow
      have hhigh' := (div_lt_iff₀ hunit).mpr hhigh
      refine hb.round_of_carried hpower (shiftToTargetExponent_eq acc htarget (by omega))
        (hscaled.rounded_eq ?_ ?_ fun hodd => ?_) sign
      · push_cast
        exact hlow'
      · push_cast
        linarith
      · exact absurd hodd (by norm_num)
  · have hfull : 2 ^ 52 ≤ b.mantissa := by
      by_contra hlt
      exact hsmall (by exact_mod_cast hx.lt_two_zpow (Nat.lt_of_not_le hlt))
    have hlt : x < 2 ^ (53 + b.exponent) := by exact_mod_cast hx.lt_two_zpow hb.lt
    have hbits : total - 1 < 53 + b.exponent := lt_of_two_zpow_le htotal hlt
    have htop : (2 : ℚ) ^ (53 + b.exponent - 1) ≤ x := by
      rw [show 53 + b.exponent - 1 = 52 + b.exponent by ring]
      exact le_of_not_gt hsmall
    have htotal' := totalExponent_eq hfloor htop hlt (by omega)
    refine keeps ?_ (by omega)
    rw [htotal', targetExponent_eq]
    omega

/-! ## Quotients -/

/-- A mantissa lies between two powers of two. -/
lemma value_bounds {m : Nat} (hm : 0 < m) (e : Int) :
    (2 : ℚ) ^ (totalExponent m e - 1) ≤ m * 2 ^ e ∧ (m : ℚ) * 2 ^ e < 2 ^ totalExponent m e := by
  have hpower : (0 : ℚ) < 2 ^ e := by positivity
  have hlow : (2 : ℚ) ^ m.log2 ≤ m := by exact_mod_cast Nat.log2_self_le hm.ne'
  have hhigh : (m : ℚ) < 2 ^ (m.log2 + 1) := by exact_mod_cast Nat.lt_log2_self
  constructor
  · rw [totalExponent, show ((m.log2 : Int) + 1 + e - 1) = m.log2 + e by ring,
      zpow_add₀ two_ne_zero, zpow_natCast]
    exact mul_le_mul_of_nonneg_right hlow hpower.le
  · rw [totalExponent, zpow_add₀ two_ne_zero]
    exact_mod_cast mul_lt_mul_of_pos_right hhigh hpower

/-- The division of floats gives the float that attracts the exact quotient. -/
theorem div_eq (hb : b.IsFloat) {m₁ m₂ : Nat} {e₁ e₂ : Int} (h₁ : 0 < m₁) (h₂ : 0 < m₂)
    (hx : b.Attracts (m₁ * 2 ^ e₁ / (m₂ * 2 ^ e₂))) :
    UnpackedFloat.div Format.binary64 (.finite .positive m₁ e₁ h₁) (.finite .positive m₂ e₂ h₂) =
      .finite .positive b.mantissa b.exponent hb.pos := by
  have hlow := value_bounds h₁ e₁
  have hhigh := value_bounds h₂ e₂
  have hpos₂ : (0 : ℚ) < m₂ := by exact_mod_cast h₂
  have hpower₂ : (0 : ℚ) < 2 ^ e₂ := by positivity
  rw [UnpackedFloat.div]
  simp only [divCore]
  generalize htotal : totalExponent m₁ e₁ - totalExponent m₂ e₂ = total
  generalize ht : min (e₁ - e₂) (Format.binary64.targetExponent total) = t
  generalize hk : (e₁ - e₂ - t).toNat = k
  have hpower : (0 : ℚ) < 2 ^ t := by positivity
  have hquotient : (m₁ * 2 ^ e₁ / (m₂ * 2 ^ e₂) : ℚ) / 2 ^ t =
      (m₁ <<< k / m₂ : ℕ) + (m₁ <<< k % m₂ : ℕ) / (m₂ : ℚ) := by
    have hparts : ((m₁ <<< k : ℕ) : ℚ) = m₂ * (m₁ <<< k / m₂ : ℕ) + (m₁ <<< k % m₂ : ℕ) := by
      exact_mod_cast (Nat.div_add_mod _ _).symm
    have hshift : ((m₁ <<< k : ℕ) : ℚ) = m₁ * 2 ^ e₁ / (2 ^ e₂ * 2 ^ t) := by
      rw [Nat.shiftLeft_eq, ← zpow_add₀ two_ne_zero, mul_div_assoc, ← zpow_sub₀ two_ne_zero,
        show e₁ - (e₂ + t) = k by omega]
      push_cast
      rw [zpow_natCast]
    calc (m₁ * 2 ^ e₁ / (m₂ * 2 ^ e₂) : ℚ) / 2 ^ t = m₁ * 2 ^ e₁ / (2 ^ e₂ * 2 ^ t) / m₂ := by
          field_simp
      _ = (m₂ * (m₁ <<< k / m₂ : ℕ) + (m₁ <<< k % m₂ : ℕ)) / m₂ := by rw [← hshift, hparts]
      _ = _ := by field_simp
  have hrepresents := Represents.ofFraction (m₁ <<< k / m₂) (Nat.mod_lt (m₁ <<< k) h₂)
  rw [← hquotient] at hrepresents
  have hcut : t ≤ Format.binary64.targetExponent total := by omega
  refine roundWithAccuracy_eq hb hx hrepresents ?_ hcut .positive
  rw [le_div_iff₀ (by positivity)]
  calc (2 : ℚ) ^ (total - 1) * (m₂ * 2 ^ e₂)
      ≤ 2 ^ (total - 1) * 2 ^ totalExponent m₂ e₂ :=
        mul_le_mul_of_nonneg_left hhigh.2.le (by positivity)
    _ = 2 ^ (totalExponent m₁ e₁ - 1) := by
        rw [← zpow_add₀ two_ne_zero]
        congr 1
        omega
    _ ≤ m₁ * 2 ^ e₁ := hlow.1

end Binary

end BlockLang.Decimal
