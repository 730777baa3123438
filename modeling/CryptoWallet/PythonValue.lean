import Mathlib.Tactic.Common
import Mathlib.Tactic.Ring
import Mathlib.Data.List.Lemmas

/-!
# Values as the services see them

Event payloads are dictionaries decoded from JSON, and the handlers read them
through a few Python primitives: subscription, `get`, `str`, `int` and
truthiness.  Floats, lists and nested dictionaries only ever reach these
primitives, so such a value is represented by their results.

The second half is `uuid.UUID`: the permissive parser, which strips decorations
and hands the rest to `int(·, 16)`, and the canonical spelling, which the
parser reads back.
-/

namespace CryptoWallet

/-! ## Characters and integers -/

/-- The code points of digit zero in every script (category Nd). -/
def decimalZeros : List Nat :=
  [0x30, 0x660, 0x6f0, 0x7c0, 0x966, 0x9e6, 0xa66, 0xae6, 0xb66, 0xbe6,
    0xc66, 0xce6, 0xd66, 0xde6, 0xe50, 0xed0, 0xf20, 0x1040, 0x1090, 0x17e0,
    0x1810, 0x1946, 0x19d0, 0x1a80, 0x1a90, 0x1b50, 0x1bb0, 0x1c40, 0x1c50,
    0xa620, 0xa8d0, 0xa900, 0xa9d0, 0xa9f0, 0xaa50, 0xabf0, 0xff10, 0x104a0,
    0x10d30, 0x11066, 0x110f0, 0x11136, 0x111d0, 0x112f0, 0x11450, 0x114d0,
    0x11650, 0x116c0, 0x11730, 0x118e0, 0x11950, 0x11c50, 0x11d50, 0x11da0,
    0x11f50, 0x16a60, 0x16ac0, 0x16b50, 0x1d7ce, 0x1d7d8, 0x1d7e2, 0x1d7ec,
    0x1d7f6, 0x1e140, 0x1e2f0, 0x1e4f0, 0x1e950, 0x1fbf0]

def decimalDigit? (c : Char) : Option Nat :=
  (decimalZeros.find? fun first => first ≤ c.toNat && c.toNat < first + 10).map
    (c.toNat - ·)

/-- `str.isspace`. -/
def isSpace (c : Char) : Bool :=
  c.toNat ∈ [0x9, 0xa, 0xb, 0xc, 0xd, 0x1c, 0x1d, 0x1e, 0x1f, 0x20, 0x85, 0xa0,
    0x1680, 0x2000, 0x2001, 0x2002, 0x2003, 0x2004, 0x2005, 0x2006, 0x2007,
    0x2008, 0x2009, 0x200a, 0x2028, 0x2029, 0x202f, 0x205f, 0x3000]

def strip (drop : Char → Bool) (text : List Char) : List Char :=
  ((text.dropWhile drop).reverse.dropWhile drop).reverse

def digitOf (base : Nat) (c : Char) : Option Nat :=
  let digit :=
    match decimalDigit? c with
    | some d => some d
    | none =>
      if 'a' ≤ c ∧ c ≤ 'z' then some (c.toNat - 87)
      else if 'A' ≤ c ∧ c ≤ 'Z' then some (c.toNat - 55)
      else none
  digit.filter (· < base)

/-- Digits after the first one; single underscores may separate them. -/
def readDigits (base acc : Nat) : List Char → Option Nat
  | [] => some acc
  | '_' :: c :: rest =>
    (digitOf base c).bind fun d => readDigits base (acc * base + d) rest
  | c :: rest =>
    (digitOf base c).bind fun d => readDigits base (acc * base + d) rest

def readNumeral (base : Nat) : List Char → Option Nat
  | [] => none
  | c :: rest => (digitOf base c).bind fun d => readDigits base d rest

/-- `int(·, 16)` skips `0x`, and one underscore after it. -/
def dropHexPrefix : List Char → List Char
  | c :: x :: rest =>
    if decimalDigit? c = some 0 ∧ (x = 'x' ∨ x = 'X') then
      match rest with
      | '_' :: digits => digits
      | digits => digits
    else c :: x :: rest
  | text => text

def splitSign : List Char → Bool × List Char
  | '-' :: rest => (true, rest)
  | '+' :: rest => (false, rest)
  | text => (false, text)

/-- Unlike `str.strip`, `int` does not skip the separators 0x1c to 0x1f. -/
def isIntSpace (c : Char) : Bool :=
  isSpace c && (c.toNat < 0x1c || 0x1f < c.toNat)

/-- `int(text, base)` for base 10, limited to 4300 digits, or base 16. -/
def pyInt (base : Nat) (text : List Char) : Option Int :=
  let body := strip isIntSpace text
  let (negative, unsigned) := splitSign body
  let digits := if base = 16 then dropHexPrefix unsigned else unsigned
  if base = 10 ∧ 4300 < (digits.filter (· ≠ '_')).length then none
  else (readNumeral base digits).map fun n => if negative then -(n : Int) else n

/-! ## Letter case -/

def asciiLower (c : Char) : Char :=
  if 'A' ≤ c ∧ c ≤ 'Z' then Char.ofNat (c.toNat + 32) else c

/-- `str.lower`, of which only the ASCII part is fixed. -/
structure LetterCase where
  lower : String → String
  lower_ascii : ∀ text : String, (∀ c ∈ text.toList, c.toNat < 128) →
    lower text = String.ofList (text.toList.map asciiLower)

/-- The letter case of a text without letters outside ASCII. -/
def LetterCase.ascii : LetterCase where
  lower text := String.ofList (text.toList.map asciiLower)
  lower_ascii := fun _ _ => rfl

/-! ## JSON values -/

/-- What the handlers can observe of a float, a list or a dictionary: its
`str`, its truthiness, its `int` and its text as a query parameter, the last
two where they exist, and whether a text inside it has a NUL. -/
structure Opaque where
  text : String
  truthy : Bool
  truncated : Option Int
  bound : Option String
  nul : Bool
  deriving DecidableEq

inductive Json where
  | null
  | bool (value : Bool)
  | int (value : Int)
  | str (value : String)
  | other (value : Opaque)
  deriving DecidableEq

namespace Json

/-- `str(value)`. -/
def toStr : Json → String
  | null => "None"
  | bool true => "True"
  | bool false => "False"
  | int n => toString n
  | str s => s
  | other o => o.text

/-- `bool(value)`. -/
def truthy : Json → Bool
  | null => false
  | bool b => b
  | int n => n ≠ 0
  | str s => s ≠ ""
  | other o => o.truthy

/-- `int(value)`; `none` stands for the `TypeError` or `ValueError`. -/
def toInt? : Json → Option Int
  | null => none
  | bool b => some (if b then 1 else 0)
  | int n => some n
  | str s => pyInt 10 s.toList
  | other o => o.truncated

/-- The `->>` operator: the text of a scalar, `NULL` for JSON null.  The text of
an array or an object is no scalar the queries compare with. -/
def scalarText : Json → Option String
  | null => none
  | bool b => some (if b then "true" else "false")
  | int n => some (toString n)
  | str s => some s
  | other _ => none

end Json

abbrev Payload := List (String × Json)

namespace Payload

/-- `payload.get(key)` before its default. -/
def get? (payload : Payload) (key : String) : Option Json :=
  List.lookup key payload

/-- `payload.get(key, default)`. -/
def getD (payload : Payload) (key : String) (fallback : Json) : Json :=
  (payload.get? key).getD fallback

/-- Equality as dictionaries: the order of the keys does not matter. -/
def Same (payload payload' : Payload) : Prop :=
  ∀ key, payload.get? key = payload'.get? key

theorem get?_eq_none_of_not_mem {payload : Payload} {key : String}
    (hkey : key ∉ payload.map Prod.fst) :
    payload.get? key = none := by
  rw [get?, List.lookup_eq_none_iff]
  intro entry hentry
  rw [bne_iff_ne]
  rintro rfl
  exact hkey (List.mem_map_of_mem hentry)

theorem same_iff (payload payload' : Payload) :
    payload.Same payload' ↔
      ∀ key ∈ payload.map Prod.fst ++ payload'.map Prod.fst,
        payload.get? key = payload'.get? key := by
  constructor
  · intro h key _
    exact h key
  · intro h key
    by_cases hkey : key ∈ payload.map Prod.fst ++ payload'.map Prod.fst
    · exact h key hkey
    · rw [List.mem_append, not_or] at hkey
      rw [get?_eq_none_of_not_mem hkey.1, get?_eq_none_of_not_mem hkey.2]

instance (payload payload' : Payload) : Decidable (payload.Same payload') :=
  decidable_of_iff' _ (same_iff payload payload')

theorem Same.refl (payload : Payload) : payload.Same payload :=
  fun _ => rfl

theorem Same.symm {payload payload' : Payload}
    (h : payload.Same payload') : payload'.Same payload :=
  fun key => (h key).symm

theorem Same.trans {payload payload' payload'' : Payload}
    (h : payload.Same payload') (h' : payload'.Same payload'') :
    payload.Same payload'' :=
  fun key => (h key).trans (h' key)

theorem Same.getD {payload payload' : Payload}
    (h : payload.Same payload') (key : String) (fallback : Json) :
    payload.getD key fallback = payload'.getD key fallback := by
  unfold Payload.getD
  rw [h key]

end Payload

/-! ## UUIDs -/

structure Uuid where
  int : Nat
  lt : int < 2 ^ 128
  deriving DecidableEq

namespace Uuid

def hexChar (digit : Nat) : Char :=
  Char.ofNat (if digit < 10 then 48 + digit else 87 + digit)

/-- The lowest `count` base 16 digits, the highest of them first. -/
def hexDigits : (count : Nat) → Nat → List Char
  | 0, _ => []
  | count + 1, n => hexDigits count (n / 16) ++ [hexChar (n % 16)]

/-- `str(uuid)`. -/
def str (u : Uuid) : String :=
  let hex := hexDigits 32 u.int
  String.ofList (hex.take 8 ++ '-' :: (hex.drop 8).take 4 ++
    '-' :: (hex.drop 12).take 4 ++ '-' :: (hex.drop 16).take 4 ++
    '-' :: hex.drop 20)

/-- `text.replace(pattern, "")`, with the number of characters left to skip. -/
def removeAll (pattern : List Char) : (skip : Nat) → List Char → List Char
  | _, [] => []
  | skip + 1, _ :: rest => removeAll pattern skip rest
  | 0, c :: rest =>
    if pattern.isPrefixOf (c :: rest) then
      removeAll pattern (pattern.length - 1) rest
    else c :: removeAll pattern 0 rest

/-- `uuid.UUID(text)`. -/
def parse? (text : String) : Option Uuid :=
  let bare := removeAll "uuid:".toList 0 (removeAll "urn:".toList 0 text.toList)
  let hex := (strip (fun c => c = '{' || c = '}') bare).filter (· ≠ '-')
  if hex.length ≠ 32 then none
  else (pyInt 16 hex).bind fun n =>
    if h : 0 ≤ n ∧ n.toNat < 2 ^ 128 then some ⟨n.toNat, h.2⟩ else none

/-! ### The canonical spelling reads back -/

theorem hexDigits_length (count n : Nat) :
    (hexDigits count n).length = count := by
  induction count generalizing n with
  | zero => rfl
  | succ count ih => simp [hexDigits, ih]

theorem mem_hexDigits {count n : Nat} {c : Char}
    (hc : c ∈ hexDigits count n) :
    ∃ digit < 16, c = hexChar digit := by
  induction count generalizing n with
  | zero => simp [hexDigits] at hc
  | succ count ih =>
      rw [hexDigits, List.mem_append, List.mem_singleton] at hc
      rcases hc with hc | hc
      · exact ih hc
      · exact ⟨n % 16, Nat.mod_lt n (by omega), hc⟩

theorem digitOf_hexChar :
    ∀ digit < 16, digitOf 16 (hexChar digit) = some digit := by
  decide

/-- A hexadecimal digit is none of the characters the parser treats
specially. -/
theorem hexChar_plain :
    ∀ digit < 16, hexChar digit ∉ ['u', '{', '}', '-', '_', '+', 'x', 'X'] ∧
      isSpace (hexChar digit) = false := by
  decide

theorem plain_of_mem_hexDigits {count n : Nat} {c : Char}
    (hc : c ∈ hexDigits count n) :
    c ∉ ['u', '{', '}', '-', '_', '+', 'x', 'X'] ∧ isSpace c = false := by
  obtain ⟨digit, hdigit, rfl⟩ := mem_hexDigits hc
  exact hexChar_plain digit hdigit

theorem readDigits_cons (base acc : Nat) {c : Char} (rest : List Char)
    (hc : c ≠ '_') :
    readDigits base acc (c :: rest) =
      (digitOf base c).bind fun d => readDigits base (acc * base + d) rest := by
  rw [readDigits]
  intro head tail heq
  cases heq
  exact (hc rfl).elim

theorem readDigits_append_digit
    (base acc : Nat) {text : List Char} {c : Char}
    (hplain : '_' ∉ text) (hc : c ≠ '_') :
    readDigits base acc (text ++ [c]) =
      (readDigits base acc text).bind fun n =>
        (digitOf base c).map fun d => n * base + d := by
  induction text generalizing acc with
  | nil => simp [readDigits, Option.map_eq_bind]
  | cons head rest ih =>
      rw [List.mem_cons, not_or] at hplain
      have hhead : head ≠ '_' := Ne.symm hplain.1
      rw [List.cons_append, readDigits_cons base acc _ hhead,
        readDigits_cons base acc _ hhead, Option.bind_assoc]
      congr 1
      funext d
      exact ih (acc * base + d) hplain.2

theorem readDigits_hexDigits (count n acc : Nat) :
    readDigits 16 acc (hexDigits count n) =
      some (acc * 16 ^ count + n % 16 ^ count) := by
  induction count generalizing n with
  | zero => simp [hexDigits, readDigits, Nat.mod_one]
  | succ count ih =>
      have hplain : '_' ∉ hexDigits count (n / 16) := by
        intro hmem
        have hfresh := (plain_of_mem_hexDigits hmem).1
        simp at hfresh
      have hlast := hexChar_plain (n % 16) (Nat.mod_lt n (by omega))
      have hne : hexChar (n % 16) ≠ '_' := by
        intro heq
        simp [heq] at hlast
      rw [hexDigits, readDigits_append_digit 16 acc hplain hne, ih,
        digitOf_hexChar (n % 16) (Nat.mod_lt n (by omega))]
      have hmod : n % 16 ^ (count + 1) = n / 16 % 16 ^ count * 16 + n % 16 := by
        rw [Nat.pow_succ', Nat.mod_mul]
        omega
      simp only [Option.bind_some, Option.map_some, Option.some.injEq]
      rw [hmod, Nat.pow_succ]
      ring

theorem readNumeral_hexDigits (count n : Nat) :
    readNumeral 16 (hexDigits (count + 1) n) = some (n % 16 ^ (count + 1)) := by
  have hread := readDigits_hexDigits (count + 1) n 0
  cases hdigits : hexDigits (count + 1) n with
  | nil =>
      have hlength := hexDigits_length (count + 1) n
      simp [hdigits] at hlength
  | cons head rest =>
      have hhead : head ≠ '_' := by
        rintro rfl
        have hmem : '_' ∈ hexDigits (count + 1) n := by
          rw [hdigits]
          exact List.mem_cons_self
        have hfresh := (plain_of_mem_hexDigits hmem).1
        simp at hfresh
      rw [hdigits, readDigits_cons 16 0 rest hhead] at hread
      simpa [readNumeral] using hread

theorem strip_eq_self {drop : Char → Bool} {text : List Char}
    (hkeep : ∀ c ∈ text, drop c = false) :
    strip drop text = text := by
  have hdrop : ∀ xs : List Char, (∀ c ∈ xs, drop c = false) →
      xs.dropWhile drop = xs := by
    intro xs hxs
    cases xs with
    | nil => rfl
    | cons c rest => simp [hxs c List.mem_cons_self]
  unfold strip
  rw [hdrop text hkeep, hdrop text.reverse (by simpa using hkeep),
    List.reverse_reverse]

theorem removeAll_eq_self {first : Char} {pattern text : List Char}
    (hfirst : first ∉ text) :
    removeAll (first :: pattern) 0 text = text := by
  induction text with
  | nil => rfl
  | cons c rest ih =>
      rw [List.mem_cons, not_or] at hfirst
      have hstarts : (first :: pattern).isPrefixOf (c :: rest) = false := by
        simp [List.isPrefixOf, hfirst.1]
      rw [removeAll, hstarts, ih hfirst.2]
      rfl

theorem pyInt_hexDigits (count n : Nat) :
    pyInt 16 (hexDigits (count + 1) n) =
      some ((n % 16 ^ (count + 1) : Nat) : Int) := by
  have hplain : ∀ c ∈ hexDigits (count + 1) n,
      c ∉ ['u', '{', '}', '-', '_', '+', 'x', 'X'] ∧ isSpace c = false :=
    fun c => plain_of_mem_hexDigits
  have hstrip : strip isIntSpace (hexDigits (count + 1) n) =
      hexDigits (count + 1) n := by
    apply strip_eq_self
    intro c hc
    simp [isIntSpace, (hplain c hc).2]
  have hsign : splitSign (hexDigits (count + 1) n) =
      (false, hexDigits (count + 1) n) := by
    rw [splitSign]
    · intro rest heq
      have hfresh := (hplain '-' (by rw [heq]; exact List.mem_cons_self)).1
      simp at hfresh
    · intro rest heq
      have hfresh := (hplain '+' (by rw [heq]; exact List.mem_cons_self)).1
      simp at hfresh
  have hhex : dropHexPrefix (hexDigits (count + 1) n) =
      hexDigits (count + 1) n := by
    unfold dropHexPrefix
    split
    next c x rest heq =>
      have hx := (hplain x (by rw [heq]; simp)).1
      have hnot : ¬(x = 'x' ∨ x = 'X') := by
        rintro (rfl | rfl) <;> simp at hx
      rw [if_neg (fun h => hnot h.2), heq]
    next => rfl
  simp [pyInt, hstrip, hsign, hhex, readNumeral_hexDigits]

theorem str_toList (u : Uuid) :
    u.str.toList = (hexDigits 32 u.int).take 8 ++
      '-' :: ((hexDigits 32 u.int).drop 8).take 4 ++
      '-' :: ((hexDigits 32 u.int).drop 12).take 4 ++
      '-' :: ((hexDigits 32 u.int).drop 16).take 4 ++
      '-' :: (hexDigits 32 u.int).drop 20 := by
  simp [str]

theorem mem_str_toList {u : Uuid} {c : Char} (hc : c ∈ u.str.toList) :
    c = '-' ∨ c ∈ hexDigits 32 u.int := by
  rw [str_toList] at hc
  simp only [List.mem_append, List.mem_cons, or_assoc] at hc
  have htake : ∀ m, c ∈ (hexDigits 32 u.int).take m → c ∈ hexDigits 32 u.int :=
    fun m => List.mem_of_mem_take
  have hdrop : ∀ m, c ∈ (hexDigits 32 u.int).drop m → c ∈ hexDigits 32 u.int :=
    fun m => List.mem_of_mem_drop
  rcases hc with h | h | h | h | h | h | h | h | h
  · exact Or.inr (htake 8 h)
  · exact Or.inl h
  · exact Or.inr (hdrop 8 (List.mem_of_mem_take h))
  · exact Or.inl h
  · exact Or.inr (hdrop 12 (List.mem_of_mem_take h))
  · exact Or.inl h
  · exact Or.inr (hdrop 16 (List.mem_of_mem_take h))
  · exact Or.inl h
  · exact Or.inr (hdrop 20 h)

theorem filter_str (u : Uuid) :
    u.str.toList.filter (· ≠ '-') = hexDigits 32 u.int := by
  have hkeep : (hexDigits 32 u.int).filter (· ≠ '-') = hexDigits 32 u.int := by
    rw [List.filter_eq_self]
    intro c hc
    have hfresh := (plain_of_mem_hexDigits hc).1
    simp only [List.mem_cons, not_or] at hfresh
    simp [hfresh.2.2.2.1]
  have hsplit : hexDigits 32 u.int = (hexDigits 32 u.int).take 8 ++
      (((hexDigits 32 u.int).drop 8).take 4 ++
      (((hexDigits 32 u.int).drop 12).take 4 ++
      (((hexDigits 32 u.int).drop 16).take 4 ++
        (hexDigits 32 u.int).drop 20))) := by
    have hstep : ∀ m k, (hexDigits 32 u.int).drop m =
        ((hexDigits 32 u.int).drop m).take k ++
          (hexDigits 32 u.int).drop (m + k) := by
      intro m k
      rw [← List.drop_drop, List.take_append_drop]
    rw [← hstep 16 4, ← hstep 12 4, ← hstep 8 4, List.take_append_drop]
  have hjoin : u.str.toList.filter (· ≠ '-') =
      (hexDigits 32 u.int).filter (· ≠ '-') := by
    conv_rhs => rw [hsplit]
    rw [str_toList]
    simp [List.filter_append]
  rw [hjoin, hkeep]

/-- `uuid.UUID(str(u)) == u`. -/
theorem parse?_str (u : Uuid) : parse? u.str = some u := by
  have hplain : ∀ c ∈ u.str.toList, c ∉ ['u', '{', '}'] := by
    intro c hc
    rcases mem_str_toList hc with rfl | hc
    · decide
    · have hfresh := (plain_of_mem_hexDigits hc).1
      simp only [List.mem_cons, not_or] at hfresh
      simp [hfresh.1, hfresh.2.1, hfresh.2.2.1]
  have hu : 'u' ∉ u.str.toList := fun hmem => by
    simpa using hplain 'u' hmem
  have hurn : removeAll "urn:".toList 0 u.str.toList = u.str.toList :=
    removeAll_eq_self hu
  have huuid : removeAll "uuid:".toList 0 u.str.toList = u.str.toList :=
    removeAll_eq_self hu
  have hbraces : strip (fun c => c = '{' || c = '}') u.str.toList =
      u.str.toList := by
    apply strip_eq_self
    intro c hc
    have hfresh := hplain c hc
    simp only [List.mem_cons, not_or] at hfresh
    simp [hfresh.2.1, hfresh.2.2.1]
  have hmod : u.int % 16 ^ (31 + 1) = u.int := by
    apply Nat.mod_eq_of_lt
    have hlt := u.lt
    norm_num at hlt ⊢
    exact hlt
  unfold parse?
  simp only [hurn, huuid, hbraces, filter_str, hexDigits_length,
    pyInt_hexDigits 31, hmod]
  have hbound : (0 : Int) ≤ u.int ∧ (u.int : Int).toNat < 2 ^ 128 :=
    ⟨Int.natCast_nonneg u.int, u.lt⟩
  rw [if_neg (by simp), Option.bind_some, dif_pos hbound]
  rfl

theorem str_injective {u v : Uuid} (h : u.str = v.str) : u = v := by
  have hparse : parse? u.str = parse? v.str := by rw [h]
  rw [parse?_str, parse?_str] at hparse
  exact Option.some.inj hparse

theorem str_length (u : Uuid) : u.str.length = 36 := by
  rw [← String.length_toList, str_toList]
  simp [hexDigits_length]

end Uuid

def someUuid (n : Nat) : Uuid := ⟨n % 2 ^ 128, Nat.mod_lt _ (by decide)⟩

/-! ## Decimal integers read back -/

theorem digitOf_digitChar : ∀ digit < 10,
    digitOf 10 (Nat.digitChar digit) = some digit ∧ Nat.digitChar digit ≠ '_' := by
  decide

theorem readDigits_toDigits (n : Nat) :
    readDigits 10 0 (Nat.toDigits 10 n) = some n := by
  induction n using Nat.strong_induction_on with
  | h n ih =>
      by_cases hn : n < 10
      · obtain ⟨hdigit, hplain⟩ := digitOf_digitChar n hn
        rw [Nat.toDigits_of_lt_base hn, Uuid.readDigits_cons 10 0 [] hplain, hdigit]
        simp [readDigits]
      · obtain ⟨hdigit, hplain⟩ := digitOf_digitChar (n % 10) (Nat.mod_lt n (by omega))
        rw [Nat.toDigits_of_base_le (by omega) (by omega),
          Uuid.readDigits_append_digit 10 0 Nat.underscore_not_in_toDigits hplain,
          ih (n / 10) (by omega), hdigit]
        simp only [Option.bind_some, Option.map_some, Option.some.injEq]
        omega

theorem readNumeral_eq_readDigits {base : Nat} {text : List Char} (htext : text ≠ [])
    (hplain : '_' ∉ text) : readNumeral base text = readDigits base 0 text := by
  cases text with
  | nil => exact (htext rfl).elim
  | cons c rest =>
      rw [List.mem_cons, not_or] at hplain
      rw [readNumeral, Uuid.readDigits_cons base 0 rest (Ne.symm hplain.1)]
      simp

/-- `int(str(n)) == n`, as far as `int` reads that many digits. -/
theorem pyInt_toString_of_digits (n : Nat) :
    pyInt 10 (toString (n : Int)).toList =
      if 4300 < (Nat.toDigits 10 n).length then none else some (n : Int) := by
  have htext : (toString (n : Int)).toList = Nat.toDigits 10 n := Nat.toList_repr
  have hdigit : ∀ c ∈ Nat.toDigits 10 n, c.isDigit = true :=
    fun c hc => Nat.isDigit_of_mem_toDigits (by omega) (by omega) hc
  have hspace : ∀ c ∈ Nat.toDigits 10 n, isIntSpace c = false := by
    intro c hc
    have hrange : 48 ≤ c.toNat ∧ c.toNat ≤ 57 := by
      simpa [Char.isDigit, UInt32.le_iff_toNat_le] using hdigit c hc
    have hspace : isSpace c = false := by
      simp only [isSpace, List.mem_cons, List.not_mem_nil, or_false,
        decide_eq_false_iff_not]
      omega
    simp [isIntSpace, hspace]
  have hsign : splitSign (Nat.toDigits 10 n) = (false, Nat.toDigits 10 n) := by
    rw [splitSign]
    · intro rest heq
      have hhead := hdigit '-' (by rw [heq]; exact List.mem_cons_self)
      simp at hhead
    · intro rest heq
      have hhead := hdigit '+' (by rw [heq]; exact List.mem_cons_self)
      simp at hhead
  have hplain : (Nat.toDigits 10 n).filter (fun c => !decide (c = '_')) =
      Nat.toDigits 10 n := by
    apply List.filter_eq_self.mpr
    rintro c hc
    have hne : c ≠ '_' := by
      rintro rfl
      exact Nat.underscore_not_in_toDigits hc
    simp [hne]
  have hnumeral : readNumeral 10 (Nat.toDigits 10 n) = some n := by
    rw [readNumeral_eq_readDigits Nat.toDigits_ne_nil Nat.underscore_not_in_toDigits,
      readDigits_toDigits]
  unfold pyInt
  rw [htext, Uuid.strip_eq_self hspace]
  simp [hsign, hnumeral, hplain]

/-- The values of a NUMERIC(78) column are short enough. -/
theorem pyInt_toString {n : Nat} (hn : n < 10 ^ 78) :
    pyInt 10 (toString (n : Int)).toList = some (n : Int) := by
  have hlength : (Nat.toDigits 10 n).length ≤ 78 :=
    (Nat.length_toDigits_le_iff (by omega) (by omega)).mpr hn
  rw [pyInt_toString_of_digits, if_neg]
  omega

theorem pyInt_toString_eq {n : Nat} {value : Int}
    (h : pyInt 10 (toString (n : Int)).toList = some value) : value = n := by
  rw [pyInt_toString_of_digits] at h
  split at h
  · cases h
  · exact (Option.some.inj h).symm

end CryptoWallet
