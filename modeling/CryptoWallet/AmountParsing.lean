import CryptoWallet.AmountPrecision

/-!
# Parsed amounts keep their value

A plain numeral is digits with at most one point.  An amount that is parsed should be
the exact value of the input in smallest units, and a plain numeral should be accepted
as soon as it has such a value.  This holds exactly where 80 digits suffice.
-/

namespace CryptoWallet

/-! ## Plain numerals -/

/-- Digits, possibly with a point among or around them. -/
structure PlainNumeral where
  whole : List (Fin 10)
  fraction : Option (List (Fin 10))
  anyDigit : whole ≠ [] ∨ fraction.getD [] ≠ []

namespace PlainNumeral

def digitChar (digit : Fin 10) : Char := Char.ofNat (48 + digit)

def body (numeral : PlainNumeral) : List Char :=
  numeral.whole.map digitChar ++
    numeral.fraction.elim [] fun fraction => '.' :: fraction.map digitChar

def text (numeral : PlainNumeral) : String := String.ofList numeral.body

def places (numeral : PlainNumeral) : List (Fin 10) := numeral.fraction.getD []

/-- The value of digits written one after another. -/
def ofDigits (digits : List (Fin 10)) : Nat :=
  Nat.ofDigits 10 (digits.map Fin.val).reverse

def value (numeral : PlainNumeral) : ℚ :=
  ofDigits (numeral.whole ++ numeral.places) / 10 ^ numeral.places.length

theorem digitChar_plain (digit : Fin 10) :
    digitChar digit ∉ ['.', '_', '-', '+', 'e', 'E', 'i', 'n', 's'] ∧
      isSpace (digitChar digit) = false ∧ asciiLower (digitChar digit) = digitChar digit ∧
      decimalDigit? (digitChar digit) = some digit.val := by
  revert digit
  decide

theorem body_plain {numeral : PlainNumeral} {c : Char} (hc : c ∈ numeral.body) :
    c ∉ ['_', '-', '+', 'e', 'E', 'i', 'n', 's'] ∧ isSpace c = false ∧ asciiLower c = c := by
  have hpoint : '.' ∉ ['_', '-', '+', 'e', 'E', 'i', 'n', 's'] ∧ isSpace '.' = false ∧
      asciiLower '.' = '.' := by decide
  have hdigit : ∀ digit : Fin 10, digitChar digit ∉ ['_', '-', '+', 'e', 'E', 'i', 'n', 's'] ∧
      isSpace (digitChar digit) = false ∧ asciiLower (digitChar digit) = digitChar digit := by
    intro digit
    obtain ⟨hnot, hspace, hlower, -⟩ := digitChar_plain digit
    exact ⟨fun hmem => hnot (List.mem_cons_of_mem _ hmem), hspace, hlower⟩
  unfold body at hc
  rcases List.mem_append.mp hc with hwhole | hfraction
  · obtain ⟨digit, -, rfl⟩ := List.mem_map.mp hwhole
    exact hdigit digit
  · cases hoption : numeral.fraction with
    | none => simp [hoption] at hfraction
    | some fraction =>
        simp only [hoption, Option.elim_some, List.mem_cons, List.mem_map] at hfraction
        rcases hfraction with rfl | ⟨digit, -, rfl⟩
        · exact hpoint
        · exact hdigit digit

theorem readDecimalDigits_map (digits : List (Fin 10)) :
    readDecimalDigits (digits.map digitChar) = some (digits.map Fin.val) := by
  induction digits with
  | nil => rfl
  | cons digit rest ih =>
      have hdigit := (digitChar_plain digit).2.2.2
      simp [readDecimalDigits, hdigit, ih]

theorem ofDecimalDigits_map (digits : List (Fin 10)) :
    ofDecimalDigits (digits.map Fin.val) = ofDigits digits := by
  unfold ofDecimalDigits ofDigits
  rw [Nat.ofDigits_eq_foldr, List.foldr_reverse]
  congr 1
  funext acc digit
  simp [mul_comm, add_comm]

theorem whole_of_body (numeral : PlainNumeral) :
    numeral.body.takeWhile (· ≠ '.') = numeral.whole.map digitChar ∧
      (numeral.body.dropWhile (· ≠ '.')).drop 1 = numeral.places.map digitChar := by
  have hwhole : ∀ c ∈ numeral.whole.map digitChar, decide (c ≠ '.') = true := by
    intro c hc
    obtain ⟨digit, -, rfl⟩ := List.mem_map.mp hc
    have hnot := (digitChar_plain digit).1
    simp only [List.mem_cons, not_or] at hnot
    simpa using hnot.1
  unfold body places
  rw [List.takeWhile_append_of_pos hwhole, List.dropWhile_append_of_pos hwhole]
  cases numeral.fraction <;> simp

theorem body_ne_nil (numeral : PlainNumeral) : numeral.body ≠ [] := by
  have hdigit := numeral.anyDigit
  unfold body
  cases hoption : numeral.fraction with
  | none => simpa [hoption] using hdigit
  | some fraction => simp

/-- A plain numeral is read as the number it denotes. -/
theorem decimalOfInput_text (numeral : PlainNumeral) :
    decimalOfInput (.text numeral.text) = .ok (.finite
      ⟨false, ofDigits (numeral.whole ++ numeral.places), -numeral.places.length⟩) := by
  have hlist : numeral.text.toList = numeral.body := String.toList_ofList
  have hnot : ∀ c ∈ ['_', '-', '+', 'e', 'E', 'i', 'n', 's'], c ∉ numeral.body := by
    intro c hc hmem
    exact (body_plain hmem).1 hc
  have hstrip : strip isSpace numeral.body = numeral.body :=
    Uuid.strip_eq_self fun c hc => (body_plain hc).2.1
  have hfilter : numeral.body.filter (· ≠ '_') = numeral.body := by
    rw [List.filter_eq_self]
    intro c hc
    have hne : c ≠ '_' := by
      rintro rfl
      exact hnot _ (by simp) hc
    simpa using hne
  have hsign : splitSign numeral.body = (false, numeral.body) := by
    rw [splitSign]
    · intro rest heq
      exact hnot '-' (by simp) (by rw [heq]; exact List.mem_cons_self)
    · intro rest heq
      exact hnot '+' (by simp) (by rw [heq]; exact List.mem_cons_self)
  have hword : numeral.body.map asciiLower = numeral.body := by
    have hmap : numeral.body.map asciiLower = numeral.body.map id :=
      List.map_congr_left fun c hc => (body_plain hc).2.2
    rw [hmap, List.map_id]
  have hprefix : ∀ word : List Char, ∀ c ∈ word, c ∈ ['i', 'n', 's'] →
      word.isPrefixOf numeral.body = false := by
    intro word c hc hletter
    rw [Bool.eq_false_iff]
    intro hword
    obtain ⟨rest, hrest⟩ := List.isPrefixOf_iff_prefix.mp hword
    apply hnot c
    · simp only [List.mem_cons, List.not_mem_nil, or_false] at hletter ⊢
      tauto
    · rw [← hrest]
      exact List.mem_append_left rest hc
  have hinf : ∀ word : List Char, 'i' ∈ word → numeral.body ≠ word := by
    intro word hi heq
    exact hnot 'i' (by simp) (by rw [heq]; exact hi)
  have hdigits : ¬(numeral.whole.map digitChar = [] ∧ numeral.places.map digitChar = []) := by
    rw [List.map_eq_nil_iff, List.map_eq_nil_iff, not_and_or]
    exact numeral.anyDigit
  have hpoint : readPoint false numeral.body = some
      ⟨false, ofDigits (numeral.whole ++ numeral.places), -numeral.places.length⟩ := by
    unfold readPoint
    dsimp only
    rw [numeral.whole_of_body.1, numeral.whole_of_body.2, if_neg hdigits]
    simp [readDecimalDigits_map, ← List.map_append, ofDecimalDigits_map]
  have hnumber : readNumber numeral.body = some (.finite
      ⟨false, ofDigits (numeral.whole ++ numeral.places), -numeral.places.length⟩) := by
    unfold readNumber
    rw [hstrip, hfilter, hsign]
    dsimp only
    rw [hword, if_neg, hprefix _ 'n' (by decide) (by decide), hprefix _ 's' (by decide) (by decide),
      hpoint]
    · rfl
    · rw [not_or]
      exact ⟨hinf _ (by decide), hinf _ (by decide)⟩
  unfold decimalOfInput
  dsimp only
  rw [hlist, hstrip, if_neg numeral.body_ne_nil, if_neg, hnumber]
  rw [not_or]
  exact ⟨hnot 'e' (by simp), hnot 'E' (by simp)⟩

/-! ## Values -/

theorem ofDigits_append (front back : List (Fin 10)) :
    ofDigits (front ++ back) = ofDigits front * 10 ^ back.length + ofDigits back := by
  unfold ofDigits
  rw [List.map_append, List.reverse_append, Nat.ofDigits_append, List.length_reverse,
    List.length_map]
  ring

theorem ofDigits_lt (digits : List (Fin 10)) : ofDigits digits < 10 ^ digits.length := by
  have hlt := Nat.ofDigits_lt_base_pow_length (b := 10) (l := (digits.map Fin.val).reverse)
    (by omega) (by simp)
  simpa [ofDigits] using hlt

theorem ofDigits_pos {digits : List (Fin 10)} (h : ∃ digit ∈ digits, digit ≠ 0) :
    0 < ofDigits digits := by
  induction digits with
  | nil => simp at h
  | cons first rest ih =>
      have hsplit := ofDigits_append [first] rest
      have hfirst : ofDigits [first] = first := by simp [ofDigits]
      rw [hfirst] at hsplit
      change ofDigits (first :: rest) = _ at hsplit
      rw [hsplit]
      by_cases hzero : first = 0
      · have hrest : 0 < ofDigits rest := by
          apply ih
          simpa [hzero] using h
        omega
      · have hpos : 0 < first.val := Fin.pos_iff_ne_zero.mpr hzero
        positivity

/-- A digit behind the last place of the asset is not lost in the scaled value. -/
theorem not_integral {numeral : PlainNumeral} {decimals : Nat}
    (h : ∃ digit ∈ numeral.places.drop decimals, digit ≠ 0) (units : Int) :
    numeral.value * 10 ^ decimals ≠ units := by
  have hlong : decimals < numeral.places.length := by
    by_contra hshort
    rw [List.drop_eq_nil_of_le (by omega)] at h
    simp at h
  have hunits : numeral.whole ++ numeral.places =
      (numeral.whole ++ numeral.places.take decimals) ++ numeral.places.drop decimals := by
    rw [List.append_assoc, List.take_append_drop]
  have hlength : (numeral.places.drop decimals).length = numeral.places.length - decimals :=
    List.length_drop
  have hvalue := ofDigits_append (numeral.whole ++ numeral.places.take decimals)
    (numeral.places.drop decimals)
  rw [← hunits, hlength] at hvalue
  have hpos := ofDigits_pos h
  have hlt := ofDigits_lt (numeral.places.drop decimals)
  rw [hlength] at hlt
  have hsplit : (10 : ℚ) ^ numeral.places.length =
      10 ^ (numeral.places.length - decimals) * 10 ^ decimals := by
    rw [← pow_add]
    congr 1
    omega
  intro hinteger
  unfold value at hinteger
  rw [hsplit, div_mul_eq_mul_div, mul_div_mul_right _ _ (by positivity),
    div_eq_iff (by positivity)] at hinteger
  have hexact : (ofDigits (numeral.whole ++ numeral.places) : Int) =
      units * (10 ^ (numeral.places.length - decimals) : Nat) := by exact_mod_cast hinteger
  rw [hvalue] at hexact
  generalize 10 ^ (numeral.places.length - decimals) = unit at *
  generalize ofDigits (numeral.places.drop decimals) = rest at *
  have hdvd : (unit : Int) ∣ rest := by
    refine ⟨units - ofDigits (numeral.whole ++ numeral.places.take decimals), ?_⟩
    push_cast at hexact
    linarith
  have hle := Nat.le_of_dvd hpos (Int.natCast_dvd_natCast.mp hdvd)
  omega

end PlainNumeral

/-! ## Exactness -/

/-- The number an input denotes. -/
def exactValue (value : AmountInput) : Option ℚ :=
  match decimalOfInput value with
  | .ok (.finite dec) => some dec.toRat
  | _ => none

structure KeepsMoney (value : AmountInput) (decimals : Nat) (allowZero : Bool) : Prop where
  exact : ∀ units, parseAmount value decimals allowZero = .ok units →
    (∃ x, exactValue value = some x ∧ x * 10 ^ decimals = units) ∧
      (0 < units ∨ allowZero = true ∧ 0 ≤ units)
  accepted : ∀ numeral : PlainNumeral, value = .text numeral.text → 0 < numeral.value →
    (∃ units : Int, numeral.value * 10 ^ decimals = units) →
      ∃ units, parseAmount value decimals allowZero = .ok units
  rejected : ∀ numeral : PlainNumeral, value = .text numeral.text →
    (∃ digit ∈ numeral.places.drop decimals, digit ≠ 0) →
      ∀ units, parseAmount value decimals allowZero ≠ .ok units

/-- The scaled number is below the overflow and survives its rounding; a number beyond
is not a plain numeral with a value in smallest units. -/
def PrecisionSuffices (value : AmountInput) (decimals : Nat) : Prop :=
  ∀ dec, decimalOfInput value = .ok (.finite dec) → dec.negative = false →
    0 < dec.coefficient →
      if decimals ≤ Decimal.jumpLimit ∧ dec.toRat * 10 ^ decimals < Decimal.ceiling then
        (dec.scaled decimals).RoundsSafely
      else ∀ numeral : PlainNumeral, value = .text numeral.text →
        ∀ units : Int, numeral.value * 10 ^ decimals ≠ units

theorem PlainNumeral.toRat_eq (numeral : PlainNumeral) :
    Decimal.toRat ⟨false, ofDigits (numeral.whole ++ numeral.places),
      -numeral.places.length⟩ = numeral.value := by
  simp [Decimal.toRat, Decimal.magnitude, PlainNumeral.value, zpow_neg, div_eq_mul_inv]

theorem Decimal.toRat_of_nonneg {dec : Decimal} (h : dec.negative = false) :
    dec.toRat = dec.magnitude := by
  simp [Decimal.toRat, h]

theorem Decimal.magnitude_pos {dec : Decimal} (h : 0 < dec.coefficient) :
    0 < dec.magnitude := by
  unfold Decimal.magnitude
  positivity

/-- An input that denotes a positive number is accepted where its rounding is an integer. -/
theorem parseAmount_positive_iff {value : AmountInput} {decimals : Nat} {allowZero : Bool}
    {units : Int} {dec : Decimal} (hinput : decimalOfInput value = .ok (.finite dec))
    (hsign : dec.negative = false) (hpos : 0 < dec.coefficient) :
    parseAmount value decimals allowZero = .ok units ↔
      (decimals ≤ Decimal.jumpLimit ∧ dec.toRat * 10 ^ decimals < Decimal.ceiling) ∧
        (dec.scaled decimals).rounded.magnitude = units := by
  have hscale := @scaleAmount_ok_iff dec decimals units hpos
  have hrounded : (dec.scaled decimals).rounded.negative = false := hsign
  rw [Decimal.toRat_of_nonneg hrounded, Decimal.scaled_magnitude] at hscale
  rw [parseAmount_ok_iff, Decimal.toRat_of_nonneg hsign, and_assoc, ← hscale]
  constructor
  · rintro ⟨dec', hinput', -, -, h⟩
    rw [hinput] at hinput'
    cases hinput'
    exact h
  · intro h
    refine ⟨dec, hinput, ?_, ?_, h⟩
    · simp [hsign]
    · omega

theorem exactValue_eq {value : AmountInput} {dec : Decimal}
    (hinput : decimalOfInput value = .ok (.finite dec)) : exactValue value = some dec.toRat := by
  unfold exactValue
  rw [hinput]

theorem PlainNumeral.exactValue_text (numeral : PlainNumeral) :
    exactValue (.text numeral.text) = some numeral.value := by
  rw [exactValue_eq numeral.decimalOfInput_text, numeral.toRat_eq]

theorem PrecisionSuffices.exact {value : AmountInput} {decimals : Nat}
    (h : PrecisionSuffices value decimals) {allowZero : Bool} {units : Int}
    (hparse : parseAmount value decimals allowZero = .ok units) :
    (∃ x, exactValue value = some x ∧ x * 10 ^ decimals = units) ∧
      (0 < units ∨ allowZero = true ∧ 0 ≤ units) := by
  have hnonneg := parseAmount_nonneg hparse
  obtain ⟨dec, hinput, hnegative, hallowed, hscale⟩ := parseAmount_ok_iff.mp hparse
  by_cases hzero : dec.coefficient = 0
  · have hunits := scaleAmount_zero hzero hscale
    constructor
    · refine ⟨dec.toRat, exactValue_eq hinput, ?_⟩
      simp [Decimal.toRat, Decimal.magnitude, hzero, hunits]
    · right
      constructor
      · by_contra hrefused
        exact hallowed ⟨hzero, hrefused⟩
      · exact hnonneg
  · have hpos : 0 < dec.coefficient := Nat.pos_of_ne_zero hzero
    have hsign : dec.negative = false := by
      rw [Bool.eq_false_iff]
      intro hnegated
      exact hnegative ⟨hnegated, hzero⟩
    obtain ⟨hfits, hrounded⟩ := (parseAmount_positive_iff hinput hsign hpos).mp hparse
    have hsafe := h dec hinput hsign hpos
    rw [if_pos hfits, Decimal.roundsSafely_iff] at hsafe
    have hvalue : dec.toRat * 10 ^ decimals = units := by
      rw [Decimal.toRat_of_nonneg hsign, ← Decimal.scaled_magnitude]
      exact hsafe units hrounded
    constructor
    · exact ⟨dec.toRat, exactValue_eq hinput, hvalue⟩
    · left
      have hmagnitude := Decimal.magnitude_pos hpos
      rw [← Decimal.toRat_of_nonneg hsign] at hmagnitude
      have hproduct : (0 : ℚ) < dec.toRat * 10 ^ decimals := by positivity
      rw [hvalue] at hproduct
      exact_mod_cast hproduct

theorem PlainNumeral.coefficient_pos {numeral : PlainNumeral} (h : 0 < numeral.value) :
    0 < ofDigits (numeral.whole ++ numeral.places) := by
  by_contra hzero
  have hnone : ofDigits (numeral.whole ++ numeral.places) = 0 := by omega
  simp [PlainNumeral.value, hnone] at h

theorem PrecisionSuffices.accepted {numeral : PlainNumeral} {decimals : Nat}
    (h : PrecisionSuffices (.text numeral.text) decimals) (allowZero : Bool)
    (hpos : 0 < numeral.value) {units : Int} (hunits : numeral.value * 10 ^ decimals = units) :
    parseAmount (.text numeral.text) decimals allowZero = .ok units := by
  have hinput := numeral.decimalOfInput_text
  have hcoefficient := PlainNumeral.coefficient_pos hpos
  have hsafe := h _ hinput rfl hcoefficient
  rw [numeral.toRat_eq] at hsafe
  rw [parseAmount_positive_iff hinput rfl hcoefficient, numeral.toRat_eq]
  by_cases hfits : decimals ≤ Decimal.jumpLimit ∧
      numeral.value * 10 ^ decimals < Decimal.ceiling
  · rw [if_pos hfits] at hsafe
    refine ⟨hfits, hsafe.rounded_eq ?_⟩
    rw [Decimal.scaled_magnitude, ← Decimal.toRat_of_nonneg rfl, numeral.toRat_eq]
    exact hunits
  · rw [if_neg hfits] at hsafe
    exact absurd hunits (hsafe numeral rfl units)

/-- Parsing keeps the value of an input, and accepts the plain numerals it should,
exactly where the precision suffices. -/
theorem parseAmount_keeps_money_iff (value : AmountInput) (decimals : Nat) (allowZero : Bool) :
    KeepsMoney value decimals allowZero ↔ PrecisionSuffices value decimals := by
  constructor
  · intro h dec hinput hsign hpos
    have hparse : ∀ units : Int, parseAmount value decimals allowZero = .ok units ↔
        (decimals ≤ Decimal.jumpLimit ∧ dec.toRat * 10 ^ decimals < Decimal.ceiling) ∧
          (dec.scaled decimals).rounded.magnitude = units :=
      fun units => parseAmount_positive_iff hinput hsign hpos
    have hmagnitude := Decimal.magnitude_pos hpos
    split
    next hfits =>
      rw [Decimal.roundsSafely_iff]
      intro n hn
      obtain ⟨x, hx, hvalue⟩ := (h.exact n ((hparse n).mpr ⟨hfits, hn⟩)).1
      rw [exactValue_eq hinput, Option.some.injEq] at hx
      rw [Decimal.scaled_magnitude, ← Decimal.toRat_of_nonneg hsign, hx]
      exact hvalue
    next hover =>
      intro numeral hvalue units hunits
      have htext := numeral.decimalOfInput_text
      rw [← hvalue, hinput] at htext
      have hdec : dec.toRat = numeral.value := by
        rw [← numeral.toRat_eq]
        cases htext
        rfl
      have hpositive : 0 < numeral.value := by
        rw [← hdec, Decimal.toRat_of_nonneg hsign]
        exact hmagnitude
      obtain ⟨parsed, hparsed⟩ := h.accepted numeral hvalue hpositive ⟨units, hunits⟩
      exact hover ((hparse parsed).mp hparsed).1
  · intro h
    constructor
    · exact fun units hparse => h.exact hparse
    · rintro numeral rfl hpositive ⟨units, hunits⟩
      exact ⟨units, h.accepted allowZero hpositive hunits⟩
    · rintro numeral rfl hdigit units hparse
      obtain ⟨x, hx, hvalue⟩ := (h.exact hparse).1
      rw [numeral.exactValue_text, Option.some.injEq] at hx
      rw [← hx] at hvalue
      exact PlainNumeral.not_integral hdigit units hvalue

/-- `1.` with eighty zeros and a one behind the point. -/
def dustyNumeral : PlainNumeral where
  whole := [1]
  fraction := some (List.replicate 80 0 ++ [1])
  anyDigit := Or.inl (by decide)

/-- The dust is rounded away before the places are counted. -/
theorem dust_is_rounded_away :
    parseAmount (.text dustyNumeral.text) 6 = .ok 1000000 ∧
      ¬∀ (value : AmountInput) (decimals : Nat) (allowZero : Bool),
        KeepsMoney value decimals allowZero := by
  have hparse : parseAmount (.text dustyNumeral.text) 6 = .ok 1000000 := by decide +kernel
  have hdigit : ∃ digit ∈ dustyNumeral.places.drop 6, digit ≠ 0 := by decide
  constructor
  · exact hparse
  · intro h
    exact (h (.text dustyNumeral.text) 6 false).rejected dustyNumeral rfl hdigit _ hparse

end CryptoWallet
