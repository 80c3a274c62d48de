import BlockLang.Decimal.Reading
import BlockLang.Decimal.Text
import Mathlib

/-!
# Digits with a point between them

The texts of floats in a program are digits with a point between them (`Decimal.IsPointed`).  Such
a text is read as the float of its digits and the number of places behind the point
(`Decimal.ofText?_pointed`).  A decimal that is written out in full is one, and its digits and
places are those of the decimal (`Decimal.exists_positional_eq`).
-/

namespace BlockLang.Decimal

variable {c : Char} {whole fraction digits : List Char}

/-! ## Reading -/

lemma toLower_of_isDigit (h : c.isDigit = true) : c.toLower = c := by
  obtain ⟨-, hhigh⟩ := Char.isDigit_iff_toNat.mp h
  have hupper : ¬ (c.val ≥ 'A'.val ∧ c.val ≤ 'Z'.val) := by
    rintro ⟨hlow, -⟩
    exact absurd ((UInt32.le_iff_toNat_le.mp hlow).trans hhigh) (by decide)
  rw [Char.toLower, dif_neg hupper]

/-- Digits with a point between them are neither infinite nor anything but a number. -/
lemma ofText?_pointed (hne : whole ≠ []) (hwhole : ∀ c ∈ whole, c.isDigit = true)
    (hfraction : ∀ c ∈ fraction, c.isDigit = true) :
    ofText? (String.ofList (whole ++ '.' :: fraction)) = some (ofPlaces whole fraction 0) := by
  obtain ⟨first, rest, rfl⟩ := List.exists_cons_of_ne_nil hne
  have hfirst : first.isDigit = true := hwhole first (List.mem_cons_self ..)
  have htake : (first :: rest ++ '.' :: fraction).takeWhile Char.isDigit = first :: rest := by
    rw [List.takeWhile_append_of_pos hwhole]
    simp
  have hdrop : (first :: rest ++ '.' :: fraction).dropWhile Char.isDigit = '.' :: fraction := by
    rw [List.dropWhile_append_of_pos hwhole]
    simp
  have hbehind : fraction.takeWhile Char.isDigit = fraction :=
    List.takeWhile_eq_self_iff.mpr hfraction
  have hnothing : fraction.dropWhile Char.isDigit = [] := List.dropWhile_eq_nil_iff.mpr hfraction
  have hname : ∀ name : String, name.toList.head?.any Char.isDigit = false →
      String.ofList ((first :: rest ++ '.' :: fraction).map Char.toLower) ≠ name := by
    rintro name hletter rfl
    rw [String.toList_ofList, List.cons_append, List.map_cons, toLower_of_isDigit hfirst,
      List.head?_cons, Option.any_some, hfirst] at hletter
    cases hletter
  have hmagnitude : ofMagnitude? (first :: rest ++ '.' :: fraction) =
      some (ofPlaces (first :: rest) fraction 0) := by
    simp only [ofMagnitude?, htake, hdrop, hbehind, hnothing]
    rw [if_neg, if_neg, if_neg]
    · simp
    · exact hname "nan" (by decide)
    · exact not_or.mpr ⟨hname "inf" (by decide), hname "infinity" (by decide)⟩
  rw [ofText?, String.toList_ofList]
  split
  · next heq =>
    cases (List.cons.inj heq).1
    exact absurd hfirst (by decide)
  · next heq =>
    cases (List.cons.inj heq).1
    exact absurd hfirst (by decide)
  · exact hmagnitude

/-- The places behind the point are divided off. -/
lemma ofPlaces_eq (hne : fraction ≠ []) : ofPlaces whole fraction 0 =
    Float.ofScientific (ofDigits (whole ++ fraction)) true fraction.length := by
  have hlength : 0 < fraction.length := List.length_pos_iff.mpr hne
  have hnegative : decide ((0 : Int) - fraction.length < 0) = true := by
    rw [decide_eq_true_eq]
    omega
  have hplaces : ((0 : Int) - fraction.length).natAbs = fraction.length := by omega
  rw [ofPlaces]
  simp only [hnegative, hplaces]

/-! ## Writing -/

/-- Digits with a point between them. -/
def IsPointed (text : String) : Prop :=
  ∃ whole fraction : List Char, text = String.ofList (whole ++ '.' :: fraction) ∧ whole ≠ [] ∧
    (∀ c ∈ whole, c.isDigit = true) ∧ ∀ c ∈ fraction, c.isDigit = true

lemma isDigit_of_mem_toDigits {n : Nat} (h : c ∈ Nat.toDigits 10 n) : c.isDigit = true :=
  Nat.isDigit_of_mem_toDigits (by decide) (by decide) h

lemma isDigit_of_mem_replicate {k : Nat} (h : c ∈ List.replicate k '0') : c.isDigit = true := by
  rw [List.eq_of_mem_replicate h]
  decide

lemma isDigit_of_mem_zero (h : c ∈ ['0']) : c.isDigit = true := by
  rw [List.mem_singleton.mp h]
  decide

/-- The digits of a number are read as this number. -/
lemma ofDigits_toDigits (n : Nat) : ofDigits (Nat.toDigits 10 n) = n :=
  Nat.ofDigitChars_ten_toDigits

lemma ofDigits_append_replicate (digits : List Char) (k : Nat) :
    ofDigits (digits ++ List.replicate k '0') = ofDigits digits * 10 ^ k := by
  induction k with
  | zero => simp
  | succ k ih =>
    have hstep : ofDigits (digits ++ List.replicate k '0' ++ ['0']) =
        10 * ofDigits (digits ++ List.replicate k '0') + 0 := by
      rw [ofDigits, List.foldl_append]
      rfl
    rw [List.replicate_succ', ← List.append_assoc, hstep, ih, Nat.add_zero, pow_succ',
      Nat.mul_left_comm]

lemma ofDigits_replicate_append (k : Nat) (digits : List Char) :
    ofDigits (List.replicate k '0' ++ digits) = ofDigits digits := by
  induction k with
  | zero => rfl
  | succ k ih => exact ih

/-- The exact value of a decimal. -/
def Scaled.value (d : Scaled) : ℚ :=
  d.digits * 10 ^ d.exponent

/-- A decimal written out in full has digits on both sides of a point, and its value is that of
the digits without the point, divided by a power of ten. -/
lemma exists_positional_eq (d : Scaled) : ∃ whole fraction : List Char,
    d.positional = String.ofList (whole ++ '.' :: fraction) ∧ whole ≠ [] ∧
      (∀ c ∈ whole, c.isDigit = true) ∧ (∀ c ∈ fraction, c.isDigit = true) ∧ fraction ≠ [] ∧
      (ofDigits (whole ++ fraction) / 10 ^ fraction.length : ℚ) = d.value := by
  have hdigits : ∀ c ∈ Nat.toDigits 10 d.digits, c.isDigit = true := fun c hc =>
    isDigit_of_mem_toDigits hc
  rw [Scaled.positional]
  dsimp only
  split
  · next hplaces =>
    refine ⟨Nat.toDigits 10 d.digits ++ List.replicate d.exponent.toNat '0', ['0'], ?_, ?_, ?_,
      fun c hc => isDigit_of_mem_zero hc, by simp, ?_⟩
    · rw [← String.toList_inj]
      simp
    · simp
    · rintro c hc
      exact (List.mem_append.mp hc).elim (hdigits c) isDigit_of_mem_replicate
    · have hexponent : (d.exponent.toNat : Int) = d.exponent := by omega
      have hzeros : List.replicate d.exponent.toNat '0' ++ ['0'] =
          List.replicate (d.exponent.toNat + 1) '0' := List.replicate_succ'.symm
      rw [List.append_assoc, hzeros, ofDigits_append_replicate, ofDigits_toDigits, Scaled.value,
        ← hexponent, zpow_natCast, hexponent, pow_succ]
      push_cast
      rw [← mul_assoc]
      simp
  · next hplaces =>
    have hexponent : d.exponent = -((-d.exponent).toNat : Int) := by omega
    have hvalue : d.value = d.digits / 10 ^ (-d.exponent).toNat := by
      rw [Scaled.value]
      conv_lhs => rw [hexponent]
      rw [zpow_neg, zpow_natCast, div_eq_mul_inv]
    split
    · next hshort =>
      refine ⟨_, _, rfl, ?_, fun c hc => hdigits c (List.mem_of_mem_take hc),
        fun c hc => hdigits c (List.mem_of_mem_drop hc), ?_, ?_⟩
      · rw [Ne, List.take_eq_nil_iff, not_or]
        exact ⟨by omega, by simp⟩
      · rw [Ne, List.drop_eq_nil_iff]
        omega
      · have hlength : (Nat.toDigits 10 d.digits).length -
            ((Nat.toDigits 10 d.digits).length - (-d.exponent).toNat) = (-d.exponent).toNat := by
          omega
        rw [List.take_append_drop, ofDigits_toDigits, List.length_drop, hlength, hvalue]
    · next hlong =>
      generalize hzeros : (-d.exponent).toNat - (Nat.toDigits 10 d.digits).length = zeros
      have hlength : (List.replicate zeros '0' ++ Nat.toDigits 10 d.digits).length =
          (-d.exponent).toNat := by
        rw [List.length_append, List.length_replicate]
        omega
      refine ⟨['0'], List.replicate zeros '0' ++ Nat.toDigits 10 d.digits, rfl, by simp,
        fun c hc => isDigit_of_mem_zero hc, fun c hc => ?_, by simp, ?_⟩
      · exact (List.mem_append.mp hc).elim isDigit_of_mem_replicate (hdigits c)
      · have hdrop : ofDigits (['0'] ++ (List.replicate zeros '0' ++ Nat.toDigits 10 d.digits)) =
            d.digits := by
          have hzero : ['0'] ++ (List.replicate zeros '0' ++ Nat.toDigits 10 d.digits) =
              List.replicate (zeros + 1) '0' ++ Nat.toDigits 10 d.digits := rfl
          rw [hzero, ofDigits_replicate_append, ofDigits_toDigits]
        rw [hdrop, hlength, hvalue]

/-- A float without a sign is written as digits with a point between them. -/
lemma isPointed_plain {x : Float}
    (hx : Parts.ofFloat x = .zero false ∨ ∃ size, Parts.ofFloat x = .finite false size) :
    IsPointed (plain x) := by
  obtain hzero | ⟨size, hfinite⟩ := hx
  · rw [plain, hzero]
    exact ⟨['0'], ['0'], rfl, by simp, fun c hc => isDigit_of_mem_zero hc,
      fun c hc => isDigit_of_mem_zero hc⟩
  · obtain ⟨whole, fraction, htext, hne, hwhole, hfraction, -⟩ :=
      exists_positional_eq (shortest .up size)
    rw [plain, hfinite]
    exact ⟨whole, fraction, by simpa [sign] using htext, hne, hwhole, hfraction⟩

end BlockLang.Decimal
