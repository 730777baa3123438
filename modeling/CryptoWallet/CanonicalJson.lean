import CryptoWallet.PythonValue
import Mathlib.Data.List.Sort
import Std.Data.String.ToInt

/-!
# Canonical JSON

`json.dumps` of a flat dictionary with sorted keys and without spaces, in its
default ASCII form.  The text determines the dictionary: a reader which
consumes one escaped character at a time recovers every string, and a number
ends at the first character which is neither a digit nor a sign.
-/

namespace CryptoWallet.CanonicalJson

inductive Scalar where
  | int (value : Int)
  | str (value : String)
  deriving DecidableEq

/-! ## Writing -/

def unicodeEscape (code : Nat) : List Char :=
  '\\' :: 'u' :: Uuid.hexDigits 4 code

def escapeChar (c : Char) : List Char :=
  if c = '"' then ['\\', '"']
  else if c = '\\' then ['\\', '\\']
  else if c = '\n' then ['\\', 'n']
  else if c = '\r' then ['\\', 'r']
  else if c = '\t' then ['\\', 't']
  else if c = '\x0c' then ['\\', 'f']
  else if c = '\x08' then ['\\', 'b']
  else if 0x20 ≤ c.toNat ∧ c.toNat ≤ 0x7e then [c]
  else if c.toNat < 0x10000 then unicodeEscape c.toNat
  -- a surrogate pair
  else unicodeEscape (0xd800 + (c.toNat - 0x10000) / 0x400) ++
    unicodeEscape (0xdc00 + (c.toNat - 0x10000) % 0x400)

def quoted (text : String) : List Char :=
  '"' :: text.toList.flatMap escapeChar ++ ['"']

def writeScalar : Scalar → List Char
  | .int n => (toString n).toList
  | .str s => quoted s

def writeField (field : String × Scalar) : List Char :=
  quoted field.1 ++ ':' :: writeScalar field.2

def writeFields : List (String × Scalar) → List Char
  | [] => ['}']
  | [field] => writeField field ++ ['}']
  | field :: next :: rest => writeField field ++ ',' :: writeFields (next :: rest)

def sortFields (fields : List (String × Scalar)) : List (String × Scalar) :=
  fields.insertionSort fun a b => a.1 ≤ b.1

/-- `json.dumps(payload, sort_keys=True, separators=(",", ":"))`. -/
def dumps (fields : List (String × Scalar)) : String :=
  String.ofList ('{' :: writeFields (sortFields fields))

/-! ## Reading one character back -/

def readUnicode : List Char → Option (Nat × List Char)
  | '\\' :: 'u' :: a :: b :: c :: d :: rest =>
    (readNumeral 16 [a, b, c, d]).map fun code => (code, rest)
  | _ => none

def readChar (text : List Char) : Option (Char × List Char) :=
  match readUnicode text with
  | some (code, rest) =>
    if 0xd800 ≤ code ∧ code < 0xdc00 then
      (readUnicode rest).map fun (low, rest') =>
        (Char.ofNat (0x10000 + (code - 0xd800) * 0x400 + (low - 0xdc00)), rest')
    else some (Char.ofNat code, rest)
  | none =>
    match text with
    | '\\' :: 'n' :: rest => some ('\n', rest)
    | '\\' :: 'r' :: rest => some ('\r', rest)
    | '\\' :: 't' :: rest => some ('\t', rest)
    | '\\' :: 'f' :: rest => some ('\x0c', rest)
    | '\\' :: 'b' :: rest => some ('\x08', rest)
    | '\\' :: c :: rest => some (c, rest)
    | c :: rest => some (c, rest)
    | [] => none

theorem readUnicode_unicodeEscape {code : Nat} (hcode : code < 0x10000)
    (rest : List Char) :
    readUnicode (unicodeEscape code ++ rest) = some (code, rest) := by
  have hread := Uuid.readNumeral_hexDigits 3 code
  have hmod : code % 16 ^ (3 + 1) = code := Nat.mod_eq_of_lt hcode
  rw [hmod] at hread
  simp only [Uuid.hexDigits, List.nil_append, List.cons_append] at hread
  simp [unicodeEscape, Uuid.hexDigits, readUnicode, hread]

theorem readUnicode_of_ne {c : Char} (hc : c ≠ '\\') (rest : List Char) :
    readUnicode (c :: rest) = none := by
  unfold readUnicode
  split
  next heq =>
    rw [List.cons.injEq] at heq
    exact absurd heq.1 hc
  next => rfl

theorem toNat_le (c : Char) : c.toNat ≤ 0x10ffff := by
  have hvalid := c.valid
  simp only [UInt32.isValidChar, Nat.isValidChar] at hvalid
  simp only [Char.toNat]
  omega

theorem not_surrogate (c : Char) : ¬(0xd800 ≤ c.toNat ∧ c.toNat < 0xdc00) := by
  have hvalid := c.valid
  simp only [UInt32.isValidChar, Nat.isValidChar] at hvalid
  simp only [Char.toNat]
  omega

theorem readChar_pair {high low : Nat}
    (hhigh : 0xd800 ≤ high ∧ high < 0xdc00) (hlow : low < 0x10000)
    (rest : List Char) :
    readChar (unicodeEscape high ++ unicodeEscape low ++ rest) =
      some (Char.ofNat (0x10000 + (high - 0xd800) * 0x400 + (low - 0xdc00)),
        rest) := by
  have hlt : high < 0x10000 := by omega
  unfold readChar
  rw [List.append_assoc, readUnicode_unicodeEscape hlt]
  simp only [hhigh, and_self, if_true, readUnicode_unicodeEscape hlow,
    Option.map_some]

theorem surrogates_code {n : Nat} (hlarge : ¬n < 0x10000) :
    0x10000 + (0xd800 + (n - 0x10000) / 0x400 - 0xd800) * 0x400 +
      (0xdc00 + (n - 0x10000) % 0x400 - 0xdc00) = n := by
  omega

theorem surrogates_range {n : Nat} (hle : n ≤ 0x10ffff) :
    (0xd800 ≤ 0xd800 + (n - 0x10000) / 0x400 ∧
      0xd800 + (n - 0x10000) / 0x400 < 0xdc00) ∧
      0xdc00 + (n - 0x10000) % 0x400 < 0x10000 := by
  omega

/-- The reader undoes the escaping of one character. -/
theorem readChar_escapeChar (c : Char) (rest : List Char) :
    readChar (escapeChar c ++ rest) = some (c, rest) := by
  unfold escapeChar
  split_ifs with h₁ h₂ h₃ h₄ h₅ h₆ h₇ hplain hbmp
  · simp [readChar, readUnicode, h₁]
  · simp [readChar, readUnicode, h₂]
  · simp [readChar, readUnicode, h₃]
  · simp [readChar, readUnicode, h₄]
  · simp [readChar, readUnicode, h₅]
  · simp [readChar, readUnicode, h₆]
  · simp [readChar, readUnicode, h₇]
  · rw [List.singleton_append]
    unfold readChar
    rw [readUnicode_of_ne h₂]
    simp only
    split
    all_goals simp_all
  · unfold readChar
    rw [readUnicode_unicodeEscape hbmp]
    simp only [not_surrogate c, if_false, Char.ofNat_toNat]
  · obtain ⟨hhigh, hlow⟩ := surrogates_range (toNat_le c)
    rw [readChar_pair hhigh hlow, surrogates_code hbmp, Char.ofNat_toNat]

theorem escapeChar_inj {c d : Char} {x y : List Char}
    (h : escapeChar c ++ x = escapeChar d ++ y) : c = d ∧ x = y := by
  have hc := readChar_escapeChar c x
  rw [h, readChar_escapeChar d y] at hc
  simp only [Option.some.injEq, Prod.mk.injEq] at hc
  exact ⟨hc.1.symm, hc.2.symm⟩

/-- No escaped character starts with the quote which ends a string. -/
theorem escapeChar_head (c : Char) (x y : List Char) :
    escapeChar c ++ x ≠ '"' :: y := by
  unfold escapeChar unicodeEscape
  split_ifs with h₁
  all_goals simp
  intro hc
  exact absurd hc h₁

theorem flatMap_escapeChar_inj {s t : List Char} {x y : List Char}
    (h : s.flatMap escapeChar ++ '"' :: x = t.flatMap escapeChar ++ '"' :: y) :
    s = t ∧ x = y := by
  induction s generalizing t with
  | nil =>
      cases t with
      | nil => simpa using h
      | cons d rest =>
          rw [List.flatMap_cons, List.append_assoc] at h
          exact absurd h.symm (escapeChar_head d _ _)
  | cons c rest ih =>
      cases t with
      | nil =>
          rw [List.flatMap_cons, List.append_assoc] at h
          exact absurd h (escapeChar_head c _ _)
      | cons d rest' =>
          rw [List.flatMap_cons, List.flatMap_cons, List.append_assoc,
            List.append_assoc] at h
          obtain ⟨rfl, hrest⟩ := escapeChar_inj h
          obtain ⟨rfl, hxy⟩ := ih hrest
          exact ⟨rfl, hxy⟩

theorem quoted_inj {s t : String} {x y : List Char}
    (h : quoted s ++ x = quoted t ++ y) : s = t ∧ x = y := by
  simp only [quoted, List.cons_append, List.cons.injEq, true_and,
    List.append_assoc, List.nil_append] at h
  obtain ⟨hst, hxy⟩ := flatMap_escapeChar_inj h
  exact ⟨String.toList_inj.mp hst, hxy⟩

/-! ## Numbers -/

def isNumberChar (c : Char) : Bool := c.isDigit || c = '-'

theorem isNumberChar_of_mem {n : Int} {c : Char}
    (hc : c ∈ (toString n).toList) : isNumberChar c = true := by
  have hnat : ∀ m : Nat, ∀ c ∈ (Nat.repr m).toList, c.isDigit = true := by
    intro m c hc
    rw [Nat.toList_repr] at hc
    exact Nat.isDigit_of_mem_toDigits (by omega) (by omega) hc
  cases n with
  | ofNat m => simp [isNumberChar, hnat m c hc]
  | negSucc m =>
      have hrepr : (toString (Int.negSucc m)).toList =
          '-' :: (Nat.repr (m + 1)).toList := by
        rw [show toString (Int.negSucc m) = "-" ++ Nat.repr (m + 1) from rfl,
          String.toList_append]
        rfl
      rw [hrepr] at hc
      rcases List.mem_cons.mp hc with rfl | hc
      · rfl
      · simp [isNumberChar, hnat (m + 1) c hc]

theorem toString_ne_nil (n : Int) : (toString n).toList ≠ [] := by
  cases n with
  | ofNat m =>
      rw [show toString (Int.ofNat m) = Nat.repr m from rfl, Nat.toList_repr]
      exact Nat.toDigits_ne_nil
  | negSucc m =>
      rw [show toString (Int.negSucc m) = "-" ++ Nat.repr (m + 1) from rfl]
      simp

theorem takeWhile_stop {p : Char → Bool} {text rest : List Char} {stop : Char}
    (htext : ∀ c ∈ text, p c = true) (hstop : p stop = false) :
    (text ++ stop :: rest).takeWhile p = text := by
  induction text with
  | nil => simp [hstop]
  | cons c rest' ih =>
      rw [List.cons_append, List.takeWhile_cons, htext c List.mem_cons_self, if_pos rfl,
        ih fun d hd => htext d (List.mem_cons_of_mem _ hd)]

def isStop (c : Char) : Prop := c = ',' ∨ c = '}'

theorem isStop.not_number {c : Char} (h : isStop c) : isNumberChar c = false := by
  rcases h with rfl | rfl <;> rfl

theorem writeScalar_inj {v w : Scalar} {c d : Char} {x y : List Char}
    (hc : isStop c) (hd : isStop d)
    (h : writeScalar v ++ c :: x = writeScalar w ++ d :: y) :
    v = w ∧ c :: x = d :: y := by
  have hmixed : ∀ (n : Int) (s : String) (x y : List Char),
      (toString n).toList ++ x ≠ quoted s ++ y := by
    intro n s x y heq
    cases htext : (toString n).toList with
    | nil => exact toString_ne_nil n htext
    | cons first rest =>
        have hmem : first ∈ (toString n).toList := by
          rw [htext]
          exact List.mem_cons_self
        have hfirst := isNumberChar_of_mem hmem
        rw [htext, quoted] at heq
        simp only [List.cons_append, List.cons.injEq] at heq
        rw [heq.1] at hfirst
        simp [isNumberChar] at hfirst
  cases v with
  | int n =>
      cases w with
      | int m =>
          have hn : ((toString n).toList ++ c :: x).takeWhile isNumberChar =
              (toString n).toList :=
            takeWhile_stop (fun c hc => isNumberChar_of_mem hc) hc.not_number
          have hm : ((toString m).toList ++ d :: y).takeWhile isNumberChar =
              (toString m).toList :=
            takeWhile_stop (fun c hc => isNumberChar_of_mem hc) hd.not_number
          have htext : (toString n).toList = (toString m).toList := by
            rw [← hn, ← hm]
            exact congrArg _ h
          have hnm : n = m := Int.repr_injective (String.toList_inj.mp htext)
          subst hnm
          exact ⟨rfl, List.append_cancel_left h⟩
      | str s => exact absurd h (hmixed n s _ _)
  | str s =>
      cases w with
      | int m => exact absurd h.symm (hmixed m s _ _)
      | str t =>
          obtain ⟨rfl, hxy⟩ := quoted_inj h
          exact ⟨rfl, hxy⟩

/-! ## Dictionaries -/

theorem writeField_inj {f g : String × Scalar} {c d : Char} {x y : List Char}
    (hc : isStop c) (hd : isStop d)
    (h : writeField f ++ c :: x = writeField g ++ d :: y) :
    f = g ∧ c :: x = d :: y := by
  simp only [writeField, List.append_assoc, List.cons_append] at h
  obtain ⟨hkey, hrest⟩ := quoted_inj h
  rw [List.cons.injEq] at hrest
  obtain ⟨hvalue, hxy⟩ := writeScalar_inj hc hd hrest.2
  exact ⟨Prod.ext hkey hvalue, hxy⟩

theorem writeField_head (f : String × Scalar) (x : List Char) :
    writeField f ++ x ≠ ['}'] := by
  simp [writeField, quoted]

theorem writeFields_inj {fs gs : List (String × Scalar)}
    (h : writeFields fs = writeFields gs) : fs = gs := by
  have hcomma : isStop ',' := Or.inl rfl
  have hbrace : isStop '}' := Or.inr rfl
  induction fs using writeFields.induct generalizing gs with
  | case1 =>
      match gs with
      | [] => rfl
      | [g] => exact absurd h.symm (writeField_head g _)
      | g :: g' :: rest => exact absurd h.symm (writeField_head g _)
  | case2 f =>
      match gs with
      | [] => exact absurd h (writeField_head f _)
      | [g] =>
          obtain ⟨rfl, _⟩ := writeField_inj hbrace hbrace h
          rfl
      | g :: g' :: rest =>
          have hstop := (writeField_inj hbrace hcomma h).2
          simp at hstop
  | case3 f f' rest ih =>
      match gs with
      | [] => exact absurd h (writeField_head f _)
      | [g] =>
          have hstop := (writeField_inj hcomma hbrace h).2
          simp at hstop
      | g :: g' :: rest' =>
          obtain ⟨rfl, htail⟩ := writeField_inj hcomma hcomma h
          rw [List.cons.injEq] at htail
          rw [ih htail.2]

/-- Equal texts come from dictionaries with the same fields. -/
theorem dumps_inj {fs gs : List (String × Scalar)} (h : dumps fs = dumps gs) :
    fs.Perm gs := by
  have hlist : '{' :: writeFields (sortFields fs) =
      '{' :: writeFields (sortFields gs) := by
    simpa [dumps] using congrArg String.toList h
  rw [List.cons.injEq] at hlist
  have hsorted : sortFields fs = sortFields gs := writeFields_inj hlist.2
  have hfs : (sortFields fs).Perm fs := List.perm_insertionSort _ fs
  have hgs : (sortFields gs).Perm gs := List.perm_insertionSort _ gs
  exact hfs.symm.trans (hsorted ▸ hgs)

example : dumps [("b", .str "x\"y"), ("a", .int (-3))] =
    "\x7b\"a\":-3,\"b\":\"x\\\"y\"\x7d" := by decide

end CryptoWallet.CanonicalJson
