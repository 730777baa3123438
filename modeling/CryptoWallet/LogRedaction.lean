import CryptoWallet.PythonValue
import CryptoWallet.WordRuns
import Mathlib.Data.List.Infix

/-!
# Redaction of log payloads

Before a log line is written, values under sensitive keys are replaced as a whole, and
in every other string what looks like 32 bytes in hex.  Strings under the names of hash
fields stay readable.

The pattern asks for a word boundary on both sides.  It therefore finds whole words
only, with or without `0x` in front, and the scan is the same as substituting words.
-/

namespace CryptoWallet.Logging

/-- `\w` of a pattern on texts; only its ASCII part is fixed. -/
structure WordClass where
  isWord : Char → Bool
  ascii : ∀ c : Char, c.toNat < 128 → isWord c = (c.isAlphanum || c == '_')

def isHex (c : Char) : Bool :=
  c.isDigit || ('a' ≤ c && c ≤ 'f') || ('A' ≤ c && c ≤ 'F')

def redacted : String := "***REDACTED***"

/-! ## `_HEX32_RE` -/

section

variable (W : WordClass)

/-- `\b` between two characters. -/
def boundary (before after : Option Char) : Bool :=
  before.any W.isWord != after.any W.isWord

/-- `[0-9a-fA-F]{64}\b` at the start of the text. -/
def blobLength (rest : List Char) : Option Nat :=
  let blob := rest.take 64
  if blob.length = 64 ∧ blob.all isHex ∧ boundary W blob.getLast? (rest.drop 64).head? then
    some 64
  else none

/-- `\b(0x)?[0-9a-fA-F]{64}\b` at the start of the text. -/
def matchLength (before : Option Char) (rest : List Char) : Option Nat :=
  if boundary W before rest.head? then
    match rest with
    | '0' :: 'x' :: blob =>
      match blobLength W blob with
      | some n => some (n + 2)
      | none => blobLength W rest
    | _ => blobLength W rest
  else none

/-- `_HEX32_RE.sub`; `skip` characters still belong to the last match. -/
def substitute (before : Option Char) (skip : Nat) : List Char → List Char
  | [] => []
  | c :: rest =>
    match skip with
    | skip + 1 => substitute (some c) skip rest
    | 0 =>
      match matchLength W before (c :: rest) with
      | some n => redacted.toList ++ substitute (some c) (n - 1) rest
      | none => c :: substitute (some c) 0 rest

def scrubText (text : String) : String := String.ofList (substitute W none 0 text.toList)

end

/-! ### The scan substitutes whole words -/

def isBlob (word : List Char) : Bool := word.length == 64 && word.all isHex

/-- A word the pattern matches: 64 hex digits, with or without `0x` in front. -/
def isKeyWord : List Char → Bool
  | '0' :: 'x' :: blob => isBlob blob
  | word => isBlob word

def replaceKey (word : List Char) : List Char :=
  if isKeyWord word then redacted.toList else word

section

variable {W : WordClass}

theorem isHex_ascii {c : Char} (h : isHex c = true) :
    c.toNat < 128 ∧ (c.isAlphanum || c == '_') = true := by
  unfold Char.isAlphanum Char.isAlpha Char.isUpper Char.isLower
  simp only [isHex, Char.isDigit, Bool.or_eq_true, Bool.and_eq_true, decide_eq_true_eq,
    beq_iff_eq, Char.le_def, UInt32.le_iff_toNat_le] at h ⊢
  have hnat : c.val.toNat = c.toNat := rfl
  have hdigits : '0'.val.toNat = 48 ∧ '9'.val.toNat = 57 := by decide
  have hlower : 'a'.val.toNat = 97 ∧ 'f'.val.toNat = 102 ∧ 'z'.val.toNat = 122 := by decide
  have hupper : 'A'.val.toNat = 65 ∧ 'F'.val.toNat = 70 ∧ 'Z'.val.toNat = 90 := by decide
  simp only [hnat, hdigits, hlower, hupper] at h ⊢
  omega

theorem WordClass.hex_isWord {c : Char} (h : isHex c = true) : W.isWord c = true := by
  obtain ⟨hascii, hword⟩ := isHex_ascii h
  rw [W.ascii c hascii, hword]

theorem WordClass.x_isWord : W.isWord 'x' = true := W.ascii 'x' (by decide)

theorem WordClass.zero_isWord : W.isWord '0' = true := W.ascii '0' (by decide)

theorem WordClass.star_notWord : W.isWord '*' = false := W.ascii '*' (by decide)

theorem substitute_skip (u v : List Char) (before : Option Char) :
    ∃ last, substitute W before u.length (u ++ v) = substitute W last 0 v := by
  induction u generalizing before with
  | nil => exact ⟨before, rfl⟩
  | cons c rest ih =>
      obtain ⟨last, hlast⟩ := ih (some c)
      exact ⟨last, by simpa [substitute] using hlast⟩

/-- Behind a word character nothing begins. -/
theorem substitute_inside {u : List Char} (hu : WordRuns.AllWord W.isWord u) (v : List Char)
    {before : Option Char} (hbefore : before.any W.isWord = true) :
    ∃ last, substitute W before 0 (u ++ v) = u ++ substitute W last 0 v := by
  induction u generalizing before with
  | nil => exact ⟨before, rfl⟩
  | cons c rest ih =>
      have hc := hu c List.mem_cons_self
      have hnone : matchLength W before (c :: (rest ++ v)) = none := by
        simp [matchLength, boundary, hbefore, hc]
      have hrest : WordRuns.AllWord W.isWord rest :=
        fun d hd => hu d (List.mem_cons_of_mem c hd)
      have hsome : (some c).any W.isWord = true := by simpa using hc
      obtain ⟨last, hlast⟩ := ih hrest hsome
      exact ⟨last, by simp [substitute, hnone, hlast]⟩

/-- A match begins with a word character. -/
theorem substitute_break {c : Char} (hc : W.isWord c = false) (before : Option Char)
    (rest : List Char) :
    substitute W before 0 (c :: rest) = c :: substitute W (some c) 0 rest := by
  have hhex : isHex c = false := by
    rw [Bool.eq_false_iff]
    intro hhex
    rw [WordClass.hex_isWord hhex] at hc
    cases hc
  have hblob : blobLength W (c :: rest) = none := by
    simp [blobLength, hhex]
  have hnone : matchLength W before (c :: rest) = none := by
    unfold matchLength
    split
    next hboundary =>
      split
      next heq =>
        have hzero := List.head_eq_of_cons_eq heq
        rw [hzero, WordClass.zero_isWord] at hc
        cases hc
      next => exact hblob
    next => rfl
  simp [substitute, hnone]

/-- At the end of its word, a blob of exactly 64 digits is found. -/
theorem blobLength_word {w v : List Char} (hw : WordRuns.AllWord W.isWord w)
    (hv : v.head?.any W.isWord = false) :
    blobLength W (w ++ v) = if isBlob w then some 64 else none := by
  unfold blobLength
  dsimp only
  rcases Nat.lt_trichotomy w.length 64 with hshort | hexact | hlong
  · have hnot : isBlob w = false := by
      simp [isBlob]
      omega
    have hnone : ¬((w ++ v).take 64).length = 64 ∨ ((w ++ v).take 64).all isHex = false := by
      cases v with
      | nil =>
          left
          simp
          omega
      | cons c rest =>
          right
          have hc : W.isWord c = false := by simpa using hv
          have hmem : c ∈ (w ++ c :: rest).take 64 := by
            rw [List.take_append]
            apply List.mem_append_right
            have hpositive : 64 - w.length = (63 - w.length) + 1 := by omega
            rw [hpositive, List.take_succ_cons]
            exact List.mem_cons_self
          rw [Bool.eq_false_iff]
          intro hall
          have hhex := List.all_eq_true.mp hall c hmem
          rw [WordClass.hex_isWord hhex] at hc
          cases hc
    rw [if_neg, hnot]
    · rfl
    · rintro ⟨hlength, hall, -⟩
      rcases hnone with hfalse | hfalse
      · exact hfalse hlength
      · rw [hall] at hfalse
        cases hfalse
  · have htake : (w ++ v).take 64 = w := by
      rw [← hexact, List.take_left]
    have hdrop : (w ++ v).drop 64 = v := by
      rw [← hexact, List.drop_left]
    have hlast : w.getLast?.any W.isWord = true := by
      cases hget : w.getLast? with
      | none =>
          rw [List.getLast?_eq_none_iff] at hget
          simp [hget] at hexact
      | some c => simpa using hw c (List.mem_of_getLast? hget)
    rw [htake, hdrop]
    simp [hexact, isBlob, boundary, hlast, hv]
  · have htake : (w ++ v).take 64 = w.take 64 := List.take_append_of_le_length (by omega)
    have hdrop : (w ++ v).drop 64 = w.drop 64 ++ v := List.drop_append_of_le_length (by omega)
    have hnot : isBlob w = false := by
      simp [isBlob]
      omega
    have hlast : (w.take 64).getLast?.any W.isWord = true := by
      cases hget : (w.take 64).getLast? with
      | none =>
          rw [List.getLast?_eq_none_iff] at hget
          have hlength := congrArg List.length hget
          rw [List.length_take, List.length_nil] at hlength
          omega
      | some c => simpa using hw c (List.mem_of_mem_take (List.mem_of_getLast? hget))
    have hnext : (w.drop 64 ++ v).head?.any W.isWord = true := by
      cases hrest : w.drop 64 with
      | nil =>
          have hlength := congrArg List.length hrest
          rw [List.length_drop, List.length_nil] at hlength
          omega
      | cons c rest =>
          have hc : c ∈ w.drop 64 := by
            rw [hrest]
            exact List.mem_cons_self
          simpa using hw c (List.mem_of_mem_drop hc)
    have hedge : boundary W (w.take 64).getLast? (w.drop 64 ++ v).head? = false := by
      unfold boundary
      rw [hlast, hnext]
      rfl
    rw [htake, hdrop, hnot, hedge]
    simp

theorem isBlob_hexPrefix (blob : List Char) : isBlob ('0' :: 'x' :: blob) = false := by
  have hx : isHex 'x' = false := by decide
  simp [isBlob, hx]

/-- A match is a whole word. -/
theorem matchLength_word {w v : List Char} (hw : WordRuns.AllWord W.isWord w) (hne : w ≠ [])
    (hv : v.head?.any W.isWord = false) {before : Option Char}
    (hbefore : before.any W.isWord = false) :
    matchLength W before (w ++ v) = if isKeyWord w then some w.length else none := by
  have hblob := blobLength_word hw hv
  have hlength : isBlob w = true → w.length = 64 := by
    intro h
    simp only [isBlob, Bool.and_eq_true, beq_iff_eq] at h
    exact h.1
  have hedge : boundary W before (w ++ v).head? = true := by
    obtain ⟨c, rest, rfl⟩ := List.exists_cons_of_ne_nil hne
    have hc := hw c List.mem_cons_self
    simp [boundary, hbefore, hc]
  unfold matchLength
  rw [if_pos hedge]
  by_cases hprefix : ∃ blob, w = '0' :: 'x' :: blob
  · obtain ⟨blob, rfl⟩ := hprefix
    have hinner : WordRuns.AllWord W.isWord blob :=
      fun d hd => hw d (List.mem_cons_of_mem _ (List.mem_cons_of_mem _ hd))
    have hnone : blobLength W ('0' :: 'x' :: (blob ++ v)) = none := by
      simpa [isBlob_hexPrefix] using hblob
    have hsome : isBlob blob = true → blob.length = 64 := by
      intro h
      simp only [isBlob, Bool.and_eq_true, beq_iff_eq] at h
      exact h.1
    simp only [List.cons_append, blobLength_word hinner hv, isKeyWord]
    by_cases hfound : isBlob blob = true
    · simp [hfound, hsome hfound]
    · simp [hfound, hnone]
  · have hkey : isKeyWord w = isBlob w := by
      unfold isKeyWord
      split
      next blob => exact absurd ⟨blob, rfl⟩ hprefix
      next => rfl
    have hplain : blobLength W (w ++ v) = if isKeyWord w then some w.length else none := by
      rw [hblob, hkey]
      split
      next h => rw [hlength h]
      next => rfl
    split
    next blob heq =>
      exfalso
      cases w with
      | nil => exact hne rfl
      | cons a rest =>
          cases rest with
          | nil =>
              simp only [List.cons_append, List.nil_append, List.cons.injEq] at heq
              rw [heq.2] at hv
              simp [WordClass.x_isWord] at hv
          | cons b rest =>
              simp only [List.cons_append, List.cons.injEq] at heq
              exact hprefix ⟨rest, by rw [heq.1, heq.2.1]⟩
    next => exact hplain

theorem substitute_word {w v : List Char} (hw : WordRuns.AllWord W.isWord w)
    (hv : v.head?.any W.isWord = false) {before : Option Char}
    (hbefore : before.any W.isWord = false) :
    ∃ last, substitute W before 0 (w ++ v) = replaceKey w ++ substitute W last 0 v := by
  cases w with
  | nil => exact ⟨before, rfl⟩
  | cons c rest =>
      have hmatch := matchLength_word hw (List.cons_ne_nil c rest) hv hbefore
      have hrest : WordRuns.AllWord W.isWord rest :=
        fun d hd => hw d (List.mem_cons_of_mem c hd)
      rw [List.cons_append] at hmatch ⊢
      unfold replaceKey
      by_cases hkey : isKeyWord (c :: rest) = true
      · obtain ⟨last, hlast⟩ := substitute_skip (W := W) rest v (some c)
        rw [if_pos hkey] at hmatch
        exact ⟨last, by simp [substitute, hmatch, hkey, hlast]⟩
      · have hsome : (some c).any W.isWord = true := by
          simpa using hw c List.mem_cons_self
        obtain ⟨last, hlast⟩ := substitute_inside hrest v hsome
        rw [if_neg hkey] at hmatch
        exact ⟨last, by simp [substitute, hmatch, hkey, hlast]⟩

/-- The scan replaces the words the pattern matches, and nothing else. -/
theorem substitute_eq_mapWords (text : List Char) {before : Option Char}
    (hbefore : before.any W.isWord = false) :
    substitute W before 0 text = WordRuns.mapWords W.isWord replaceKey [] text := by
  induction text using WordRuns.word_induction W.isWord generalizing before with
  | hword w hw =>
      obtain ⟨last, hlast⟩ := substitute_word hw (v := []) rfl hbefore
      rw [List.append_nil] at hlast
      rw [hlast, WordRuns.mapWords_word hw]
      simp [substitute]
  | hbreak w c rest hw hc ih =>
      have hv : (c :: rest).head?.any W.isWord = false := by simpa using hc
      have hsome : (some c).any W.isWord = false := by simpa using hc
      obtain ⟨last, hlast⟩ := substitute_word hw hv hbefore
      rw [hlast, substitute_break hc, ih hsome, WordRuns.mapWords_word_break hw hc]

/-- Stars keep the replacement apart from the text around it. -/
theorem mapWords_replaceKey {w : List Char} (hw : WordRuns.AllWord W.isWord w) :
    WordRuns.mapWords W.isWord replaceKey [] (replaceKey w) = replaceKey w := by
  unfold replaceKey
  split
  next hkey =>
    have hstar : W.isWord '*' = false := WordClass.star_notWord
    have hmiddle : WordRuns.AllWord W.isWord "REDACTED".toList := by
      intro c hc
      have hascii : "REDACTED".toList.all
          (fun c => decide (c.toNat < 128) && (c.isAlphanum || c == '_')) = true := by
        decide
      have hboth := List.all_eq_true.mp hascii c hc
      rw [Bool.and_eq_true, decide_eq_true_eq] at hboth
      rw [W.ascii c hboth.1, hboth.2]
    have hsplit : redacted.toList =
        [] ++ '*' :: ([] ++ '*' :: ([] ++ '*' :: ("REDACTED".toList ++ '*' :: ([] ++ '*' ::
          ([] ++ '*' :: []))))) := by decide
    have hnone : WordRuns.AllWord W.isWord [] := fun d hd => by cases hd
    conv_lhs => rw [hsplit]
    rw [WordRuns.mapWords_word_break hnone hstar, WordRuns.mapWords_word_break hnone hstar,
      WordRuns.mapWords_word_break hnone hstar, WordRuns.mapWords_word_break hmiddle hstar,
      WordRuns.mapWords_word_break hnone hstar, WordRuns.mapWords_word_break hnone hstar]
    rfl
  next hkey =>
    rw [WordRuns.mapWords_word hw, List.nil_append]
    exact if_neg hkey

theorem scrubText_scrubText (text : String) :
    scrubText W (scrubText W text) = scrubText W text := by
  unfold scrubText
  rw [String.toList_ofList, substitute_eq_mapWords _ rfl, substitute_eq_mapWords _ rfl,
    WordRuns.mapWords_idempotent fun w hw => mapWords_replaceKey hw]

end

/-! ## Keys -/

/-- What a letter of the pattern is compared with when case is ignored. -/
def foldCase (c : Char) : Char :=
  if c = 'ſ' then 's'
  else if c = Char.ofNat 0x212a then 'k'
  else if c = 'İ' ∨ c = 'ı' then 'i'
  else asciiLower c

/-- `name[_-]?key`. -/
def keyNames (name : String) : List String := [name ++ "key", name ++ "_key", name ++ "-key"]

def sensitiveNames : List String :=
  keyNames "private" ++ keyNames "priv" ++
    ["secret", "password", "passwd", "mnemonic", "seed"] ++
    keyNames "api" ++ ["authorization", "token", "credential", "keystore"]

/-- `_SENSITIVE_KEY_RE.search`. -/
def sensitive (key : String) : Bool :=
  sensitiveNames.any fun name => decide (name.toList <:+: key.toList.map foldCase)

/-- `_HASH_FIELDS`. -/
def hashFields : List String :=
  ["tx_hash", "block_hash", "parent_hash", "hash", "request_hash", "payload_hash"]

/-! ## Payloads -/

inductive SequenceKind where
  | list
  | tuple
  deriving DecidableEq

/-- A payload over numbers of any type. -/
inductive LogValue (ν : Type) where
  | text (text : String)
  | number (number : ν)
  | sequence (kind : SequenceKind) (values : List (LogValue ν))
  | dict (entries : List (String × LogValue ν))

variable {ν : Type} (W : WordClass)

def isExempt (key : Option String) : Bool := key.any hashFields.contains

mutual

def redact (key : Option String) : LogValue ν → LogValue ν
  | .dict entries => if key.any sensitive then .text redacted else .dict (redactEntries entries)
  | .sequence kind values =>
    if key.any sensitive then .text redacted else .sequence kind (redactValues values)
  | .number n => if key.any sensitive then .text redacted else .number n
  | .text t =>
    if key.any sensitive then .text redacted
    else if isExempt key then .text t
    else .text (scrubText W t)

def redactValues : List (LogValue ν) → List (LogValue ν)
  | [] => []
  | value :: rest => redact none value :: redactValues rest

def redactEntries : List (String × LogValue ν) → List (String × LogValue ν)
  | [] => []
  | (name, value) :: rest => (name, redact (some name) value) :: redactEntries rest

end

end CryptoWallet.Logging
