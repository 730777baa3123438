import CryptoWallet.PythonValue

/-!
# Money

Amounts are integers in the smallest unit of an asset.  Decimal numbers appear
only while a human amount is parsed: the text is read exactly, scaled by the
decimals of the asset with the rounding of an 80-digit context, and accepted
only when the scaled value is an integer.

The asset registry is static and is looked up by upper-cased symbol.
-/

namespace CryptoWallet

/-! ## Decimal numbers -/

/-- A finite `Decimal`: `(-1)^negative * coefficient * 10^exponent`. -/
structure Decimal where
  negative : Bool
  coefficient : Nat
  exponent : Int
  deriving DecidableEq

inductive Number where
  | finite (value : Decimal)
  | infinity
  | nan
  deriving DecidableEq

namespace Decimal

def precision : Nat := 80
def maxExponent : Int := 999999

/-- The largest and the smallest exponent of an 80-digit coefficient. -/
def topExponent : Int := maxExponent - precision + 1
def tinyExponent : Int := -maxExponent - precision + 1

def digitCount (n : Nat) : Nat := (toString n).length

def divHalfEven (n d : Nat) : Nat :=
  if d < 2 * (n % d) ∨ (2 * (n % d) = d ∧ n / d % 2 = 1) then n / d + 1
  else n / d

/-- Rounding to the context; `none` is the trapped `Overflow`. -/
def fix (value : Decimal) : Option Decimal :=
  if value.coefficient = 0 then some value
  else
    let needed := digitCount value.coefficient + value.exponent - precision
    if topExponent < needed then none
    else
      let least := max needed tinyExponent
      if value.exponent < least then
        let coefficient := divHalfEven value.coefficient
          (10 ^ (least - value.exponent).toNat)
        if coefficient = 10 ^ precision ∧ topExponent < least + 1 then none
        else some { value with coefficient, exponent := least }
      else some value

/-- More places are an `InvalidOperation`. -/
def jumpLimit : Nat := 2 * (999999 + precision)

def scaleb (value : Decimal) (places : Nat) : Option Decimal :=
  if jumpLimit < places then none
  else fix { value with exponent := value.exponent + places }

def signed (value : Decimal) (magnitude : Nat) : Int :=
  if value.negative then -(magnitude : Int) else magnitude

/-- The integer equal to the number, if there is one. -/
def toIntegral? (value : Decimal) : Option Int :=
  if 0 ≤ value.exponent then
    some (value.signed (value.coefficient * 10 ^ value.exponent.toNat))
  else
    let unit := 10 ^ (-value.exponent).toNat
    if value.coefficient % unit = 0 then
      some (value.signed (value.coefficient / unit))
    else none

end Decimal

def readDecimalDigits : List Char → Option (List Nat)
  | [] => some []
  | c :: rest => (decimalDigit? c).bind fun d => (readDecimalDigits rest).map (d :: ·)

def ofDecimalDigits (digits : List Nat) : Nat :=
  digits.foldl (fun acc d => acc * 10 + d) 0

/-- A numeral: digits with at most one point among or around them. -/
def readPoint (negative : Bool) (text : List Char) : Option Decimal :=
  let whole := text.takeWhile (· ≠ '.')
  let fraction := (text.dropWhile (· ≠ '.')).drop 1
  if whole = [] ∧ fraction = [] then none
  else do
    let wholeDigits ← readDecimalDigits whole
    let fractionDigits ← readDecimalDigits fraction
    some {
      negative
      coefficient := ofDecimalDigits (wholeDigits ++ fractionDigits)
      exponent := -fractionDigits.length }

/-- `Decimal(text)` for a text without exponent; `none` is
`InvalidOperation`.  Surrounding spaces and all underscores are dropped. -/
def readNumber (text : List Char) : Option Number :=
  let (negative, unsigned) := splitSign ((strip isSpace text).filter (· ≠ '_'))
  let word := unsigned.map asciiLower
  if word = "inf".toList ∨ word = "infinity".toList then some .infinity
  else if "nan".toList.isPrefixOf word then
    (readDecimalDigits (unsigned.drop 3)).map fun _ => .nan
  else if "snan".toList.isPrefixOf word then
    (readDecimalDigits (unsigned.drop 4)).map fun _ => .nan
  else (readPoint negative unsigned).map .finite

/-! ## Parsing and formatting amounts -/

inductive AmountInput where
  | bool (value : Bool)
  | float
  | int (value : Int)
  | text (value : String)
  deriving DecidableEq

/-- `AmountError` with its message, or what the scaling traps: `decimal.Overflow`, or
`decimal.InvalidOperation` for a jump over the limit. -/
inductive AmountFailure where
  | amountError (message : String)
  | overflow
  deriving DecidableEq

def decimalOfInput : AmountInput → Except AmountFailure Number
  | .bool _ => .error (.amountError "amount must not be a boolean")
  | .float =>
    .error (.amountError "float amounts are not accepted; use a decimal string")
  | .int n => .ok (.finite ⟨n < 0, n.natAbs, 0⟩)
  | .text value =>
    let text := strip isSpace value.toList
    if text = [] then .error (.amountError "amount must not be empty")
    else if 'e' ∈ text ∨ 'E' ∈ text then
      .error (.amountError "scientific notation is not accepted")
    else
      match readNumber text with
      | none =>
        .error (.amountError ("'" ++ value ++ "' is not a valid decimal amount"))
      | some number => .ok number

def scaleAmount (value : Decimal) (decimals : Nat) : Except AmountFailure Int :=
  match value.scaleb decimals with
  | none => .error .overflow
  | some scaled =>
    match scaled.toIntegral? with
    | none => .error (.amountError
        ("amount has more than " ++ toString decimals ++ " decimal places"))
    | some units => .ok units

def parseAmount (value : AmountInput) (decimals : Nat)
    (allowZero : Bool := false) : Except AmountFailure Int := do
  match ← decimalOfInput value with
  | .infinity | .nan => .error (.amountError "amount must be finite")
  | .finite dec =>
    if dec.negative ∧ dec.coefficient ≠ 0 then
      .error (.amountError "amount must not be negative")
    else if dec.coefficient = 0 ∧ ¬allowZero then
      .error (.amountError "amount must be greater than zero")
    else scaleAmount dec decimals

def zeroPad (width : Nat) (digits : List Char) : List Char :=
  List.replicate (width - digits.length) '0' ++ digits

def formatAmount (units : Int) (decimals : Nat) : String :=
  let sign := if units < 0 then "-" else ""
  let magnitude := units.natAbs
  if decimals = 0 then sign ++ toString magnitude
  else
    let whole := magnitude / 10 ^ decimals
    let frac := magnitude % 10 ^ decimals
    sign ++ toString whole ++ "." ++
      String.ofList (zeroPad decimals (toString frac).toList)

theorem Decimal.fix_negative {value fixed : Decimal}
    (h : value.fix = some fixed) : fixed.negative = value.negative := by
  simp only [Decimal.fix] at h
  split_ifs at h <;> cases h <;> rfl

theorem Decimal.fix_coefficient_zero {value fixed : Decimal}
    (hzero : value.coefficient = 0) (h : value.fix = some fixed) :
    fixed = value := by
  rw [Decimal.fix, if_pos hzero] at h
  exact (Option.some.inj h).symm

/-- An integer read off a number which is not below zero is not either. -/
theorem Decimal.toIntegral?_nonneg {value : Decimal} {n : Int}
    (hvalue : value.negative = true → value.coefficient = 0)
    (h : value.toIntegral? = some n) : 0 ≤ n := by
  have hsigned : ∀ magnitude : Nat,
      (value.negative = true → magnitude = 0) → 0 ≤ value.signed magnitude := by
    intro magnitude hmagnitude
    unfold Decimal.signed
    split
    next hnegative => simp [hmagnitude hnegative]
    next => exact Int.natCast_nonneg magnitude
  simp only [Decimal.toIntegral?] at h
  split at h
  · cases h
    exact hsigned _ fun hnegative => by simp [hvalue hnegative]
  · split at h
    · cases h
      exact hsigned _ fun hnegative => by simp [hvalue hnegative]
    · cases h

theorem Decimal.fix_of_scaleb {value scaled : Decimal} {places : Nat}
    (h : value.scaleb places = some scaled) :
    places ≤ jumpLimit ∧
      fix { value with exponent := value.exponent + places } = some scaled := by
  unfold scaleb at h
  split at h
  · cases h
  next hjump => exact ⟨Nat.le_of_not_lt hjump, h⟩

theorem scaleAmount_nonneg {dec : Decimal} {decimals : Nat} {units : Int}
    (hdec : ¬(dec.negative = true ∧ dec.coefficient ≠ 0))
    (h : scaleAmount dec decimals = .ok units) : 0 ≤ units := by
  unfold scaleAmount at h
  cases hscaled : dec.scaleb decimals with
  | none => simp [hscaled] at h
  | some scaled =>
      obtain ⟨_, hfix⟩ := Decimal.fix_of_scaleb hscaled
      simp only [hscaled] at h
      cases hintegral : scaled.toIntegral? with
      | none => simp [hintegral] at h
      | some n =>
          simp only [hintegral, Except.ok.injEq] at h
          subst h
          apply Decimal.toIntegral?_nonneg ?_ hintegral
          intro hnegative
          have hzero : dec.coefficient = 0 := by
            have hsign := Decimal.fix_negative hfix
            by_contra hne
            exact hdec ⟨by rw [← hnegative, hsign], hne⟩
          have hfixed :
              scaled = { dec with exponent := dec.exponent + decimals } :=
            Decimal.fix_coefficient_zero hzero hfix
          rw [hfixed]
          exact hzero

/-- A parsed amount is never negative. -/
theorem parseAmount_nonneg
    {value : AmountInput} {decimals : Nat} {allowZero : Bool} {units : Int}
    (h : parseAmount value decimals allowZero = .ok units) :
    0 ≤ units := by
  unfold parseAmount at h
  cases hinput : decimalOfInput value with
  | error failure => simp [hinput, bind, Except.bind] at h
  | ok number =>
      simp only [hinput, bind, Except.bind] at h
      cases number with
      | infinity => simp at h
      | nan => simp at h
      | finite dec =>
          simp only at h
          split at h
          · cases h
          next hpositive =>
            split at h
            · cases h
            · exact scaleAmount_nonneg hpositive h

example : parseAmount (.text "250.000000") 6 = .ok 250000000 := by decide

/-! ## The asset registry -/

structure Asset where
  symbol : String
  decimals : Nat
  network : String
  standard : String
  contractAddress : String
  confirmationsRequired : Nat
  finalityDepth : Nat
  deriving DecidableEq

def usdt : Asset where
  symbol := "USDT"
  decimals := 6
  network := "BSC"
  standard := "BEP-20"
  contractAddress := "0x55d398326f99059fF775485246999027B3197955"
  confirmationsRequired := 3
  finalityDepth := 15

def assets : List (String × Asset) := [("USDT", usdt)]

/-- `str.upper` as far as a registry key can contain the result: the ASCII
letters and the long s. -/
def upperChar (c : Char) : Char :=
  if 'a' ≤ c ∧ c ≤ 'z' then Char.ofNat (c.toNat - 32)
  else if c = 'ſ' then 'S'
  else c

def upper (symbol : String) : String :=
  String.ofList (symbol.toList.map upperChar)

/-- `none` is the `UnsupportedAssetError`. -/
def getAsset (symbol : String) : Option Asset :=
  List.lookup (upper symbol) assets

theorem getAsset_eq_usdt {symbol : String} {asset : Asset}
    (h : getAsset symbol = some asset) : asset = usdt := by
  unfold getAsset assets at h
  rw [List.lookup_cons] at h
  split at h
  · exact (Option.some.inj h).symm
  · cases h

/-- The symbol of a registered asset finds the asset again. -/
theorem getAsset_symbol {symbol : String} {asset : Asset}
    (h : getAsset symbol = some asset) :
    getAsset asset.symbol = some asset := by
  rw [getAsset_eq_usdt h]
  decide

end CryptoWallet
