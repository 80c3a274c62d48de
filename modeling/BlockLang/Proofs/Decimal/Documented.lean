import BlockLang.Proofs.Decimal.ReadBack

/-!
# Floats in documents

No two floats have the same text in a document (`Decimal.documented?_injective`).  The text gives
the sign and the value of the shortest decimal (`Decimal.Scaled.value_eq_of_documented_eq`), which
is not always the decimal itself, since zeros at the end are not written in one way only.  The float
attracts this value, and no number is attracted by two floats (`Decimal.Binary.Attracts.unique`).
-/

namespace BlockLang

/-- A run of characters of one kind ends where another kind begins. -/
lemma run_append_inj {p : Char → Bool} {run run' behind behind' : List Char}
    (hrun : ∀ c ∈ run, p c = true) (hrun' : ∀ c ∈ run', p c = true)
    (hbehind : ∀ c ∈ behind.head?, p c = false) (hbehind' : ∀ c ∈ behind'.head?, p c = false)
    (h : run ++ behind = run' ++ behind') : run = run' ∧ behind = behind' := by
  have htake : ∀ {run behind : List Char}, (∀ c ∈ run, p c = true) →
      (∀ c ∈ behind.head?, p c = false) → (run ++ behind).takeWhile p = run := by
    intro run behind hrun hbehind
    rw [List.takeWhile_append_of_pos hrun]
    cases behind with
    | nil => simp
    | cons c rest => simp [hbehind c rfl]
  obtain rfl : run = run' := by rw [← htake hrun hbehind, h, htake hrun' hbehind']
  exact ⟨rfl, List.append_cancel_left h⟩

namespace Decimal

/-! ## One float for each number -/

/-- No number is attracted by two floats. -/
lemma Binary.Attracts.unique {b b' : Binary} {x : ℚ} (hb : b.IsFloat) (hb' : b'.IsFloat)
    (h : b.Attracts x) (h' : b'.Attracts x) : b = b' := by
  have hpos := Rat.num_pos.mpr (h.pos hb)
  obtain ⟨n, hn⟩ := Int.eq_ofNat_of_zero_le hpos.le
  have hnum : 0 < n := by omega
  have hx : x = (n * 2 ^ (0 : ℤ) / (x.den * 2 ^ (0 : ℤ)) : ℚ) := by
    rw [zpow_zero, mul_one, mul_one]
    conv_lhs => rw [← Rat.num_div_den x, hn, Int.cast_natCast]
  rw [hx] at h h'
  have hsame := (div_eq hb hnum x.den_pos h).symm.trans (div_eq hb' hnum x.den_pos h')
  obtain ⟨m, e⟩ := b
  obtain ⟨m', e'⟩ := b'
  cases hsame
  rfl

/-! ## The value in a text -/

namespace Scaled

/-- The exponent of the first digit. -/
def power (d : Scaled) : Int :=
  d.exponent + ((Nat.toDigits 10 d.digits).length - 1 : Nat)

/-- The text of a decimal in a document. -/
def documented (d : Scaled) : String :=
  if -5 ≤ d.power ∧ d.power ≤ 15 then d.positional else d.exponential

/-- The digits in front of the power of ten, with a point behind the first one. -/
def leading (d : Scaled) : List Char :=
  (Nat.toDigits 10 d.digits).take 1 ++ match (Nat.toDigits 10 d.digits).drop 1 with
    | [] => []
    | rest => '.' :: rest

lemma toList_exponential (d : Scaled) : d.exponential.toList =
    d.leading ++ 'e' :: (if d.power < 0 then '-' else '+') :: Nat.toDigits 10 d.power.natAbs := by
  have hsign : (if d.power < 0 then "-" else "+").toList = [if d.power < 0 then '-' else '+'] := by
    split <;> rfl
  have hpower : toString d.power.natAbs = String.ofList (Nat.toDigits 10 d.power.natAbs) :=
    Nat.repr_eq_ofList_toDigits
  have htext : d.exponential = String.ofList d.leading ++ "e" ++
      (if d.power < 0 then "-" else "+") ++ toString d.power.natAbs := rfl
  rw [htext, hpower, String.toList_append, String.toList_append, String.toList_append, hsign,
    String.toList_ofList, String.toList_ofList]
  simp

/-- The digits are those of the text. -/
lemma filter_leading (d : Scaled) :
    d.leading.filter Char.isDigit = Nat.toDigits 10 d.digits := by
  have hdigits : ∀ c ∈ Nat.toDigits 10 d.digits, c.isDigit = true := fun c hc =>
    isDigit_of_mem_toDigits hc
  have hfraction : (match (Nat.toDigits 10 d.digits).drop 1 with
      | [] => []
      | rest => '.' :: rest).filter Char.isDigit = (Nat.toDigits 10 d.digits).drop 1 := by
    have hrest : ((Nat.toDigits 10 d.digits).drop 1).filter Char.isDigit =
        (Nat.toDigits 10 d.digits).drop 1 :=
      List.filter_eq_self.mpr fun c hc => hdigits c (List.mem_of_mem_drop hc)
    split
    · next hnil => rw [hnil, List.filter_nil]
    · rw [List.filter_cons_of_neg (by decide), hrest]
  rw [leading, List.filter_append, hfraction,
    List.filter_eq_self.mpr fun c hc => hdigits c (List.mem_of_mem_take hc),
    List.take_append_drop]

lemma mem_leading {d : Scaled} {c : Char} (h : c ∈ d.leading) : c.isDigit = true ∨ c = '.' := by
  rw [leading, List.mem_append] at h
  obtain h | h := h
  · exact .inl (isDigit_of_mem_toDigits (List.mem_of_mem_take h))
  · split at h
    · cases h
    · obtain rfl | h := List.mem_cons.mp h
      · exact .inr rfl
      · exact .inl (isDigit_of_mem_toDigits (List.mem_of_mem_drop h))

lemma exists_leading_eq (d : Scaled) : ∃ first rest, d.leading = first :: rest ∧
    first.isDigit = true ∧ ∀ c ∈ rest, c.isDigit = true ∨ c = '.' := by
  obtain ⟨first, rest, hdigits⟩ : ∃ first rest, Nat.toDigits 10 d.digits = first :: rest :=
    List.exists_cons_of_ne_nil Nat.toDigits_ne_nil
  have hfirst : first.isDigit = true := by
    refine isDigit_of_mem_toDigits (n := d.digits) ?_
    rw [hdigits]
    exact List.mem_cons_self ..
  have hleading : ∃ tail, d.leading = first :: tail := by
    rw [leading, hdigits]
    exact ⟨_, rfl⟩
  obtain ⟨tail, htail⟩ := hleading
  refine ⟨first, tail, htail, hfirst, fun c hc => mem_leading (d := d) ?_⟩
  rw [htail]
  exact List.mem_cons_of_mem _ hc

/-- A decimal with an exponent is determined by its text. -/
lemma exponential_injective {d d' : Scaled} (h : d.exponential = d'.exponential) : d = d' := by
  rw [← String.toList_inj, toList_exponential, toList_exponential] at h
  have hleading : ∀ d : Scaled, ∀ c ∈ d.leading, decide (c ≠ 'e') = true := by
    intro d c hc
    rw [decide_eq_true_eq]
    rintro rfl
    obtain hdigit | hpoint := mem_leading hc
    · exact absurd hdigit (by decide)
    · exact absurd hpoint (by decide)
  obtain ⟨hdigits, hpower⟩ := run_append_inj (hleading d) (hleading d') (by simp) (by simp) h
  have hdigits' : d.digits = d'.digits := by
    rw [← ofDigits_toDigits d.digits, ← filter_leading, hdigits, filter_leading, ofDigits_toDigits]
  obtain ⟨-, hpower⟩ := List.cons.inj hpower
  obtain ⟨hsign, hpower⟩ := List.cons.inj hpower
  have habs : d.power.natAbs = d'.power.natAbs := by
    rw [← ofDigits_toDigits d.power.natAbs, hpower, ofDigits_toDigits]
  have hnegative : d.power < 0 ↔ d'.power < 0 := by
    split at hsign <;> split at hsign
    · next hlow hlow' => exact iff_of_true hlow hlow'
    · exact absurd hsign (by decide)
    · exact absurd hsign (by decide)
    · next hhigh hhigh' => exact iff_of_false hhigh hhigh'
  have hexponent : d.exponent = d'.exponent := by
    have hsame : d.power = d'.power := by omega
    rw [power, power, hdigits'] at hsame
    omega
  obtain ⟨digits, exponent⟩ := d
  obtain ⟨digits', exponent'⟩ := d'
  simp_all

/-- A decimal that is written out in full is only its value. -/
lemma value_eq_of_positional_eq {d d' : Scaled} (h : d.positional = d'.positional) :
    d.value = d'.value := by
  obtain ⟨whole, fraction, htext, -, hwhole, -, -, hvalue⟩ := exists_positional_eq d
  obtain ⟨whole', fraction', htext', -, hwhole', -, -, hvalue'⟩ := exists_positional_eq d'
  rw [htext, htext', String.ofList_inj] at h
  have hpoint : ∀ fraction : List Char, ∀ c ∈ ('.' :: fraction).head?, c.isDigit = false := by
    simp
  obtain ⟨rfl, hfraction⟩ := run_append_inj hwhole hwhole' (hpoint fraction) (hpoint fraction') h
  obtain ⟨-, rfl⟩ := List.cons.inj hfraction
  rw [← hvalue, ← hvalue']

/-- Only a text with an exponent has a mark for it. -/
lemma notMem_positional (d : Scaled) : 'e' ∉ d.positional.toList := by
  obtain ⟨whole, fraction, htext, -, hwhole, hfraction, -⟩ := exists_positional_eq d
  rw [htext, String.toList_ofList, List.mem_append, List.mem_cons]
  rintro (hmem | hpoint | hmem)
  · exact absurd (hwhole _ hmem) (by decide)
  · exact absurd hpoint (by decide)
  · exact absurd (hfraction _ hmem) (by decide)

lemma mem_exponential (d : Scaled) : 'e' ∈ d.exponential.toList := by
  rw [toList_exponential]
  exact List.mem_append_right _ (List.mem_cons_self ..)

/-- Decimals with the same text in documents have the same value. -/
lemma value_eq_of_documented_eq {d d' : Scaled} (h : d.documented = d'.documented) :
    d.value = d'.value := by
  unfold documented at h
  split at h <;> split at h
  · exact value_eq_of_positional_eq h
  · exact absurd (h ▸ mem_exponential d') (notMem_positional d)
  · exact absurd (h ▸ mem_exponential d) (notMem_positional d')
  · rw [exponential_injective h]

/-! ## The characters of a text -/

/-- The text of a number begins with a digit. -/
lemma exists_documented_eq (d : Scaled) : ∃ first rest, d.documented.toList = first :: rest ∧
    first.isDigit = true ∧ ('.' ∈ rest ∨ 'e' ∈ rest) ∧
    ∀ c ∈ rest, c.isDigit = true ∨ c ∈ ['-', '+', '.', 'e'] := by
  unfold documented
  split
  · obtain ⟨whole, fraction, htext, hne, hwhole, hfraction, -⟩ := exists_positional_eq d
    obtain ⟨first, whole, rfl⟩ := List.exists_cons_of_ne_nil hne
    refine ⟨first, whole ++ '.' :: fraction, ?_, hwhole first (List.mem_cons_self ..), ?_, ?_⟩
    · rw [htext, String.toList_ofList, List.cons_append]
    · exact .inl (List.mem_append_right _ (List.mem_cons_self ..))
    · intro c hc
      obtain hc | rfl | hc := by simpa using hc
      · exact .inl (hwhole c (List.mem_cons_of_mem _ hc))
      · exact .inr (by decide)
      · exact .inl (hfraction c hc)
  · obtain ⟨first, rest, hleading, hfirst, hrest⟩ := exists_leading_eq d
    refine ⟨first, rest ++ 'e' :: (if d.power < 0 then '-' else '+') ::
      Nat.toDigits 10 d.power.natAbs, ?_, hfirst, ?_, ?_⟩
    · rw [toList_exponential, hleading, List.cons_append]
    · exact .inr (List.mem_append_right _ (List.mem_cons_self ..))
    · intro c hc
      obtain hc | rfl | rfl | hc := by simpa using hc
      · exact (hrest c hc).imp_right fun hpoint => by simp [hpoint]
      · exact .inr (by decide)
      · split <;> exact .inr (by decide)
      · exact .inl (isDigit_of_mem_toDigits hc)

end Scaled

/-! ## Floats -/

variable {x y : Float} {text : String}

/-- A float with a text in documents is a zero or attracts the value that is written. -/
lemma exists_of_documented? (h : documented? x = some text) : ∃ (negative : Bool) (d : Scaled),
    text = sign negative ++ d.documented ∧
      (Parts.ofFloat x = .zero negative ∧ d.value = 0 ∨
        ∃ b : Binary, Parts.ofFloat x = .finite negative b ∧ b.IsFloat ∧ b.Attracts d.value) := by
  rw [documented?] at h
  split at h
  · cases h
  · cases h
  · next negative hzero =>
    refine ⟨negative, ⟨0, 0⟩, (Option.some.inj h).symm, .inl ⟨hzero, ?_⟩⟩
    simp [Scaled.value]
  · next negative size hfinite =>
    obtain ⟨hfloat, -⟩ := Parts.isFloat_and_toNat_of_signed hfinite
    exact ⟨negative, shortest .even size, (Option.some.inj h).symm,
      .inr ⟨size, hfinite, hfloat, Binary.attracts_shortest hfloat .even⟩⟩

/-- A number is written without blanks, and it is not written like an integer. -/
lemma exists_documented?_eq (h : documented? x = some text) : ∃ first rest,
    text.toList = first :: rest ∧ (first.isDigit = true ∨ first = '-') ∧
      ('.' ∈ rest ∨ 'e' ∈ rest) ∧ ∀ c ∈ rest, c.isDigit = true ∨ c ∈ ['-', '+', '.', 'e'] := by
  obtain ⟨negative, d, rfl, -⟩ := exists_of_documented? h
  obtain ⟨first, rest, htext, hfirst, hmark, hrest⟩ := d.exists_documented_eq
  cases negative with
  | false =>
    refine ⟨first, rest, ?_, .inl hfirst, hmark, hrest⟩
    rw [String.toList_append, htext]
    rfl
  | true =>
    refine ⟨'-', first :: rest, ?_, .inr rfl, ?_, ?_⟩
    · rw [String.toList_append, htext]
      rfl
    · exact hmark.imp (List.mem_cons_of_mem _) (List.mem_cons_of_mem _)
    · rw [List.forall_mem_cons]
      exact ⟨.inl hfirst, hrest⟩

/-- The sign in front of a decimal is the only one. -/
lemma sign_append_inj {negative negative' : Bool} {d d' : Scaled}
    (h : sign negative ++ d.documented = sign negative' ++ d'.documented) :
    negative = negative' ∧ d.documented = d'.documented := by
  obtain ⟨first, rest, htext, hfirst, -⟩ := d.exists_documented_eq
  obtain ⟨first', rest', htext', hfirst', -⟩ := d'.exists_documented_eq
  have hdigit : ∀ {first : Char}, first.isDigit = true → first ≠ '-' := by
    rintro first hfirst rfl
    exact absurd hfirst (by decide)
  have hchars := congrArg String.toList h
  rw [String.toList_append, String.toList_append, htext, htext'] at hchars
  cases negative <;> cases negative'
  · exact ⟨rfl, by simpa [sign] using h⟩
  · exact absurd (List.cons.inj hchars).1 (hdigit hfirst)
  · exact absurd (List.cons.inj hchars).1.symm (hdigit hfirst')
  · exact ⟨rfl, by simpa [sign] using h⟩

/-- No two floats have the same text in documents. -/
theorem documented?_injective (hx : documented? x = some text) (hy : documented? y = some text) :
    x = y := by
  obtain ⟨negative, d, htext, hd⟩ := exists_of_documented? hx
  obtain ⟨negative', d', htext', hd'⟩ := exists_of_documented? hy
  obtain ⟨rfl, hdocumented⟩ := sign_append_inj (htext.symm.trans htext')
  have hvalue := Scaled.value_eq_of_documented_eq hdocumented
  obtain ⟨hzero, hd⟩ | ⟨b, hfinite, hb, hd⟩ := hd
  · obtain ⟨hzero', -⟩ | ⟨b', -, hb', hd'⟩ := hd'
    · exact Parts.eq_of_ofFloat (hzero.trans hzero'.symm) (by simp [hzero])
    · exact absurd (hvalue.symm.trans hd) (hd'.pos hb').ne'
  · obtain ⟨-, hd'⟩ | ⟨b', hfinite', hb', hd'⟩ := hd'
    · exact absurd (hvalue.trans hd') (hd.pos hb).ne'
    · obtain rfl := hd.unique hb hb' (hvalue ▸ hd')
      exact Parts.eq_of_ofFloat (hfinite.trans hfinite'.symm) (by simp [hfinite])

end Decimal

end BlockLang
