import CryptoWallet.AmountParsing

/-!
# Amounts written and read back

A formatted amount is a sign and a plain numeral with the places of the asset.  It is
read back as the amount, and two amounts are never written alike.  An accepted text is
written back as the number it denotes, except where digits behind the last place were
rounded away.
-/

namespace CryptoWallet

namespace PlainNumeral

/-! ## Writing digits -/

theorem digitChar_eq {digit : Nat} (h : digit < 10) :
    Nat.digitChar digit = digitChar ⟨digit, h⟩ := by
  have hall : ∀ digit : Fin 10, Nat.digitChar digit = digitChar digit := by decide
  exact hall ⟨digit, h⟩

/-- The decimal digits of a number, without a superfluous zero in front. -/
theorem exists_digits (n : Nat) :
    ∃ digits : List (Fin 10), digits.map digitChar = Nat.toDigits 10 n ∧
      ofDigits digits = n ∧ (digits.head? = some 0 → digits = [0]) := by
  induction n using Nat.strongRecOn with
  | ind n ih =>
      by_cases hn : n < 10
      · refine ⟨[⟨n, hn⟩], ?_, ?_, ?_⟩
        · rw [Nat.toDigits_of_lt_base hn, digitChar_eq hn]
          rfl
        · simp [ofDigits]
        · intro hhead
          simp only [List.head?_cons, Option.some.injEq] at hhead
          rw [hhead]
      · have hlast : n % 10 < 10 := Nat.mod_lt n (by omega)
        obtain ⟨digits, htext, hvalue, hleading⟩ := ih (n / 10) (by omega)
        refine ⟨digits ++ [⟨n % 10, hlast⟩], ?_, ?_, ?_⟩
        · rw [Nat.toDigits_of_base_le (by omega) (by omega), List.map_append, htext,
            digitChar_eq hlast]
          rfl
        · rw [ofDigits_append, hvalue]
          simp [ofDigits]
          omega
        · intro hhead
          have hne : digits ≠ [] := by
            rintro rfl
            exact Nat.toDigits_ne_nil htext.symm
          obtain ⟨first, rest, rfl⟩ := List.exists_cons_of_ne_nil hne
          rw [hleading hhead] at hvalue
          simp [ofDigits] at hvalue
          omega

theorem ofDigits_zeros (count : Nat) (digits : List (Fin 10)) :
    ofDigits (List.replicate count 0 ++ digits) = ofDigits digits := by
  rw [ofDigits_append]
  simp [ofDigits]

/-- The digits of the part behind the point, padded to the places of the asset. -/
theorem exists_padded {places n : Nat} (hplaces : 0 < places) (hn : n < 10 ^ places) :
    ∃ digits : List (Fin 10),
      digits.map digitChar = zeroPad places (toString n).toList ∧
        ofDigits digits = n ∧ digits.length = places := by
  obtain ⟨digits, htext, hvalue, -⟩ := exists_digits n
  have hlist : (toString n).toList = Nat.toDigits 10 n := Nat.toList_repr
  have hlength : digits.length ≤ places := by
    rw [← List.length_map digitChar, htext]
    exact (Nat.length_toDigits_le_iff (by omega) hplaces).mpr hn
  have hsame : (Nat.toDigits 10 n).length = digits.length := by
    rw [← htext, List.length_map]
  refine ⟨List.replicate (places - digits.length) 0 ++ digits, ?_, ?_, ?_⟩
  · rw [hlist, zeroPad, hsame, List.map_append, List.map_replicate, htext]
    rfl
  · rw [ofDigits_zeros, hvalue]
  · rw [List.length_append, List.length_replicate]
    omega

end PlainNumeral

/-! ## Formatted amounts -/

/-- A sign only below zero, digits without superfluous zeros, and all the places. -/
structure Renders (text : String) (units : Int) (decimals : Nat) (numeral : PlainNumeral) :
    Prop where
  text_eq : text = (if units < 0 then "-" else "") ++ numeral.text
  wholeDigits : numeral.whole ≠ []
  leading : numeral.whole.head? = some 0 → numeral.whole = [0]
  places : numeral.places.length = decimals
  point : numeral.fraction = none ↔ decimals = 0
  value : numeral.value * 10 ^ decimals = units.natAbs

theorem formatAmount_renders (units : Int) (decimals : Nat) :
    ∃ numeral, Renders (formatAmount units decimals) units decimals numeral := by
  unfold formatAmount
  dsimp only
  by_cases hzero : decimals = 0
  · obtain ⟨digits, htext, hvalue, hleading⟩ := PlainNumeral.exists_digits units.natAbs
    have hne : digits ≠ [] := by
      rintro rfl
      exact Nat.toDigits_ne_nil htext.symm
    refine ⟨⟨digits, none, Or.inl hne⟩, ?_, hne, hleading, ?_, ?_, ?_⟩
    · rw [if_pos hzero]
      congr 1
      rw [← String.toList_inj]
      simp [PlainNumeral.text, PlainNumeral.body, htext]
    · simp [PlainNumeral.places, hzero]
    · simp [hzero]
    · simp [PlainNumeral.value, PlainNumeral.places, hvalue, hzero]
  · have hunit : 0 < 10 ^ decimals := by positivity
    obtain ⟨whole, hwholeText, hwhole, hleading⟩ :=
      PlainNumeral.exists_digits (units.natAbs / 10 ^ decimals)
    obtain ⟨fraction, hfractionText, hfraction, hplaces⟩ :=
      PlainNumeral.exists_padded (Nat.pos_of_ne_zero hzero)
        (Nat.mod_lt units.natAbs hunit)
    have hne : whole ≠ [] := by
      rintro rfl
      exact Nat.toDigits_ne_nil hwholeText.symm
    refine ⟨⟨whole, some fraction, Or.inl hne⟩, ?_, hne, hleading, hplaces, ?_, ?_⟩
    · rw [if_neg hzero, String.append_assoc, String.append_assoc]
      congr 1
      rw [← String.toList_inj]
      simp [PlainNumeral.text, PlainNumeral.body, hwholeText, hfractionText]
    · simp [hzero]
    · have hsum : PlainNumeral.ofDigits (whole ++ fraction) = units.natAbs := by
        rw [PlainNumeral.ofDigits_append, hwhole, hfraction, hplaces]
        exact Nat.div_add_mod' _ _
      simp only [PlainNumeral.value, PlainNumeral.places, Option.getD_some, hsum, hplaces]
      field_simp

theorem Renders.toList {text : String} {units : Int} {decimals : Nat} {numeral : PlainNumeral}
    (h : Renders text units decimals numeral) :
    text.toList = (if units < 0 then ['-'] else []) ++ numeral.body := by
  rw [h.text_eq]
  split <;> simp [PlainNumeral.text]

theorem Renders.sign {text : String} {units : Int} {decimals : Nat} {numeral : PlainNumeral}
    (h : Renders text units decimals numeral) : '-' ∈ text.toList ↔ units < 0 := by
  have hplain : '-' ∉ numeral.body := by
    intro hmem
    have hnot := (PlainNumeral.body_plain hmem).1
    simp at hnot
  rw [h.toList]
  split
  next hnegative => simp [hnegative]
  next hnonneg => simp [hnonneg, hplain]

theorem Renders.exactValue_eq {text : String} {units : Int} {decimals : Nat}
    {numeral : PlainNumeral} (h : Renders text units decimals numeral) (hnonneg : 0 ≤ units) :
    exactValue (.text text) = some ((units : ℚ) / 10 ^ decimals) := by
  have htext : text = numeral.text := by
    rw [h.text_eq, if_neg (by omega), String.empty_append]
  have hvalue : numeral.value = units / 10 ^ decimals := by
    have habs : ((units.natAbs : Nat) : ℚ) = units := by
      rw [Nat.cast_natAbs, abs_of_nonneg hnonneg]
    rw [eq_div_iff (by positivity), h.value, habs]
  rw [htext, numeral.exactValue_text, hvalue]

/-- Two amounts are never written alike. -/
theorem formatAmount_injective {decimals : Nat} {units units' : Int}
    (h : formatAmount units decimals = formatAmount units' decimals) : units = units' := by
  obtain ⟨numeral, hrenders⟩ := formatAmount_renders units decimals
  obtain ⟨numeral', hrenders'⟩ := formatAmount_renders units' decimals
  have hsign := hrenders.sign
  have hlist := hrenders.toList
  rw [h, hrenders'.sign] at hsign
  rw [h, hrenders'.toList] at hlist
  have hbody : numeral'.body = numeral.body := by
    by_cases hnegative : units < 0
    · have hboth := hsign.mpr hnegative
      simpa [hnegative, hboth] using hlist
    · have hboth : ¬units' < 0 := fun hnegative' => hnegative (hsign.mp hnegative')
      simpa [hnegative, hboth] using hlist
  have htext : numeral'.text = numeral.text := congrArg String.ofList hbody
  have hvalue : numeral'.value = numeral.value := by
    have hread := numeral'.exactValue_text
    rw [htext, numeral.exactValue_text, Option.some.injEq] at hread
    exact hread.symm
  have habs := hrenders.value
  rw [← hvalue, hrenders'.value, Nat.cast_inj] at habs
  omega

theorem columnBound_le_ceiling : (10 : ℚ) ^ 78 ≤ Decimal.ceiling := by
  have hpower : (78 : Int) < Decimal.topExponent + Decimal.precision := by decide
  have hbound := Decimal.le_ceiling hpower
  exact_mod_cast hbound

/-- What is written for a stored amount is read back as the amount. -/
theorem parseAmount_formatAmount {decimals : Nat} (hdecimals : decimals ≤ 77) {units : Int}
    (hpos : 0 < units) (hbound : units < 10 ^ 78) :
    parseAmount (.text (formatAmount units decimals)) decimals = .ok units := by
  obtain ⟨numeral, hrenders⟩ := formatAmount_renders units decimals
  have htext : formatAmount units decimals = numeral.text := by
    rw [hrenders.text_eq, if_neg (by omega), String.empty_append]
  have habs : ((units.natAbs : Nat) : ℚ) = units := by
    rw [Nat.cast_natAbs, abs_of_nonneg hpos.le]
  have hscaled : numeral.value * 10 ^ decimals = (units : ℚ) := by
    rw [hrenders.value, habs]
  have hunits : (0 : ℚ) < units := by exact_mod_cast hpos
  have hvalue : 0 < numeral.value := by
    rw [← hscaled] at hunits
    exact pos_of_mul_pos_left hunits (by positivity)
  have hsmall : (units : ℚ) < 10 ^ 78 := by exact_mod_cast hbound
  have hinput := numeral.decimalOfInput_text
  have hcoefficient := PlainNumeral.coefficient_pos hvalue
  have hjump : decimals ≤ Decimal.jumpLimit := by
    unfold Decimal.jumpLimit
    omega
  rw [htext, parseAmount_positive_iff hinput rfl hcoefficient, numeral.toRat_eq, hscaled]
  refine ⟨⟨hjump, hsmall.trans_le columnBound_le_ceiling⟩, ?_⟩
  have hexact : Decimal.magnitude (Decimal.scaled
      ⟨false, PlainNumeral.ofDigits (numeral.whole ++ numeral.places),
        -numeral.places.length⟩ decimals) = units := by
    rw [Decimal.scaled_magnitude, ← Decimal.toRat_of_nonneg rfl, numeral.toRat_eq, hscaled]
  apply Decimal.rounded_eq_of_small hcoefficient hexact
  rw [hexact]
  linarith

/-! ## Accepted texts written back -/

/-- The text is written back as its own number, and so is every other spelling of it. -/
def Recodes (text : String) (decimals : Nat) : Prop :=
  ∀ units, parseAmount (.text text) decimals = .ok units → units < 10 ^ 78 →
    (∃ x, exactValue (.text text) = some x ∧
      exactValue (.text (formatAmount units decimals)) = some x) ∧
    ∀ spelling units', parseAmount (.text spelling) decimals = .ok units' →
      exactValue (.text spelling) = exactValue (.text text) →
        formatAmount units' decimals = formatAmount units decimals

/-- A number small enough for the column is not rounded to another. -/
def NoDust (text : String) (decimals : Nat) : Prop :=
  ∀ dec, decimalOfInput (.text text) = .ok (.finite dec) → dec.negative = false →
    0 < dec.coefficient → dec.toRat * 10 ^ decimals < 10 ^ 78 - 1 / 2 →
      (dec.scaled decimals).RoundsSafely

theorem accepted_positive {value : AmountInput} {decimals : Nat} {units : Int}
    (h : parseAmount value decimals = .ok units) :
    ∃ dec, decimalOfInput value = .ok (.finite dec) ∧ dec.negative = false ∧
      0 < dec.coefficient := by
  obtain ⟨dec, hinput, hnegative, hzero, -⟩ := parseAmount_ok_iff.mp h
  have hne : dec.coefficient ≠ 0 := fun hnone => hzero ⟨hnone, by simp⟩
  refine ⟨dec, hinput, ?_, Nat.pos_of_ne_zero hne⟩
  rw [Bool.eq_false_iff]
  exact fun hsign => hnegative ⟨hsign, hne⟩

theorem recodes_iff {decimals : Nat} (hdecimals : decimals ≤ 77) (text : String) :
    Recodes text decimals ↔ NoDust text decimals := by
  have hjump : decimals ≤ Decimal.jumpLimit := by
    unfold Decimal.jumpLimit
    omega
  constructor
  · intro h dec hinput hsign hpos hsmall
    rw [Decimal.roundsSafely_iff]
    intro n hn
    have hscaled : 0 < (dec.scaled decimals).coefficient := hpos
    have hmagnitude := hsmall
    rw [Decimal.toRat_of_nonneg hsign, ← Decimal.scaled_magnitude] at hmagnitude
    have hcolumn : n < 10 ^ 78 := (Decimal.rounded_lt_iff hscaled hn).mpr hmagnitude
    have hfits : dec.toRat * 10 ^ decimals < Decimal.ceiling := by
      have hceiling := columnBound_le_ceiling
      linarith
    have hparse : parseAmount (.text text) decimals = .ok n :=
      (parseAmount_positive_iff hinput hsign hpos).mpr ⟨⟨hjump, hfits⟩, hn⟩
    obtain ⟨x, hx, hwritten⟩ := (h n hparse hcolumn).1
    obtain ⟨numeral, hrenders⟩ := formatAmount_renders n decimals
    rw [hrenders.exactValue_eq (parseAmount_nonneg hparse), Option.some.injEq] at hwritten
    rw [exactValue_eq hinput, Option.some.injEq] at hx
    rw [Decimal.scaled_magnitude, ← Decimal.toRat_of_nonneg hsign, hx, ← hwritten]
    field_simp
  · intro h units hparse hcolumn
    obtain ⟨dec, hinput, hsign, hpos⟩ := accepted_positive hparse
    have hrounded := ((parseAmount_positive_iff hinput hsign hpos).mp hparse).2
    have hscaled : 0 < (dec.scaled decimals).coefficient := hpos
    have hsmall := (Decimal.rounded_lt_iff hscaled hrounded).mp hcolumn
    have hsafe := h dec hinput hsign hpos (by
      rw [Decimal.toRat_of_nonneg hsign, ← Decimal.scaled_magnitude]
      exact hsmall)
    have hvalue := Decimal.roundsSafely_iff.mp hsafe units hrounded
    rw [Decimal.scaled_magnitude, ← Decimal.toRat_of_nonneg hsign] at hvalue
    obtain ⟨numeral, hrenders⟩ := formatAmount_renders units decimals
    constructor
    · refine ⟨dec.toRat, exactValue_eq hinput, ?_⟩
      rw [hrenders.exactValue_eq (parseAmount_nonneg hparse), ← hvalue]
      field_simp
    · intro spelling units' hparse' hsame
      obtain ⟨dec', hinput', hsign', hpos'⟩ := accepted_positive hparse'
      have hrounded' := ((parseAmount_positive_iff hinput' hsign' hpos').mp hparse').2
      rw [exactValue_eq hinput, exactValue_eq hinput', Option.some.injEq] at hsame
      have hvalue' : (dec'.scaled decimals).magnitude = units := by
        rw [Decimal.scaled_magnitude, ← Decimal.toRat_of_nonneg hsign', hsame, hvalue]
      have hlow : (dec'.scaled decimals).magnitude < 10 ^ 79 := by
        have hbound : (units : ℚ) < 10 ^ 78 := by exact_mod_cast hcolumn
        rw [hvalue']
        linarith
      have hscaled' : 0 < (dec'.scaled decimals).coefficient := hpos'
      have hexact := Decimal.rounded_eq_of_small hscaled' hvalue' hlow
      rw [hrounded', Int.cast_inj] at hexact
      rw [hexact]

/-- Every amount is written in the one form of the asset, no two alike; a stored amount
is read back; and exactly the texts without dust are written back as what they denote. -/
theorem amounts_round_trip {decimals : Nat} (hdecimals : decimals ≤ 77) :
    (∀ units : Int, |units| < 10 ^ 78 →
      ∃ numeral, Renders (formatAmount units decimals) units decimals numeral) ∧
    (∀ units units' : Int, |units| < 10 ^ 78 → |units'| < 10 ^ 78 →
      formatAmount units decimals = formatAmount units' decimals → units = units') ∧
    (∀ units : Int, 0 < units → |units| < 10 ^ 78 →
      parseAmount (.text (formatAmount units decimals)) decimals = .ok units) ∧
    ∀ text, Recodes text decimals ↔ NoDust text decimals := by
  refine ⟨?_, ?_, ?_, fun text => recodes_iff hdecimals text⟩
  · intro units _
    exact formatAmount_renders units decimals
  · intro units units' _ _ h
    exact formatAmount_injective h
  · intro units hpos hbound
    exact parseAmount_formatAmount hdecimals hpos (abs_lt.mp hbound).2

theorem usdt_amount_round_trips :
    usdt.decimals ≤ 77 ∧
      parseAmount (.text (formatAmount 250000000 usdt.decimals)) usdt.decimals =
        .ok 250000000 := by
  have hdecimals : usdt.decimals ≤ 77 := by decide
  have hround := (amounts_round_trip hdecimals).2.2.1 250000000 (by norm_num) (by norm_num)
  exact ⟨hdecimals, hround⟩

/-- The dust behind `1.` is gone when the amount is written back. -/
theorem dust_is_not_written_back :
    ¬∀ decimals, decimals ≤ 77 → ∀ text, Recodes text decimals := by
  intro h
  have hparse : parseAmount (.text dustyNumeral.text) 6 = .ok 1000000 := by decide +kernel
  have hdigit : ∃ digit ∈ dustyNumeral.places.drop 6, digit ≠ 0 := by decide
  obtain ⟨x, hx, hwritten⟩ := (h 6 (by omega) dustyNumeral.text 1000000 hparse (by norm_num)).1
  obtain ⟨numeral, hrenders⟩ := formatAmount_renders 1000000 6
  rw [hrenders.exactValue_eq (by norm_num), Option.some.injEq] at hwritten
  rw [dustyNumeral.exactValue_text, Option.some.injEq] at hx
  apply PlainNumeral.not_integral hdigit 1000000
  rw [hx, ← hwritten]
  norm_num

end CryptoWallet
