import CryptoWallet.LogRedaction

/-!
# Raw keys in redacted payloads

A raw key is a run of exactly 64 hex digits.  It disappears from a payload when all its
occurrences are words of their own, and stays where a letter, a digit or an underscore
touches it or where the field is exempt.
-/

namespace CryptoWallet.Logging

open WordRuns

structure HexKey where
  digits : List Char
  length_eq : digits.length = 64
  hex : ∀ c ∈ digits, isHex c = true

/-- Not a part of a longer run of hex digits. -/
def Apart (front back : List Char) : Prop :=
  front.getLast?.any isHex = false ∧ back.head?.any isHex = false

def StandsAlone (K : HexKey) (text : String) : Prop := OccursIn Apart K.digits text.toList

variable (W : WordClass)

/-- Whether a word begins behind this text, which is read backwards. -/
def wordStarts : List Char → Bool
  | 'x' :: '0' :: before => !before.head?.any W.isWord
  | before => !before.head?.any W.isWord

/-- A word boundary on both sides, in front possibly with `0x` in between. -/
def Bounded (front back : List Char) : Prop :=
  back.head?.any W.isWord = false ∧ wordStarts W front.reverse = true

/-- Every occurrence of the key is a word of its own. -/
def Isolated (K : HexKey) (text : String) : Prop :=
  ∀ front back, text.toList = front ++ K.digits ++ back → Apart front back →
    Bounded W front back

variable {W}

theorem HexKey.allWord (K : HexKey) : AllWord W.isWord K.digits :=
  fun c hc => WordClass.hex_isWord (K.hex c hc)

theorem notHex_of_break {c : Char} (hc : W.isWord c = false) : isHex c = false := by
  rw [Bool.eq_false_iff]
  intro hhex
  rw [WordClass.hex_isWord hhex] at hc
  cases hc

theorem getLast?_break {u front : List Char} {c : Char} {q : Char → Bool} (hc : q c = false) :
    (u ++ c :: front).getLast?.any q = front.getLast?.any q := by
  cases front with
  | nil => simp [hc]
  | cons d rest =>
      rw [List.getLast?_append, List.getLast?_cons_cons, List.getLast?_cons]
      rfl

theorem head?_break {back v : List Char} {c : Char} {q : Char → Bool} (hc : q c = false) :
    (back ++ c :: v).head?.any q = back.head?.any q := by
  cases back <;> simp [hc]

theorem wordStarts_cons {c : Char} {before : List Char}
    (h : ¬∃ rest, c :: before = 'x' :: '0' :: rest) :
    wordStarts W (c :: before) = !W.isWord c := by
  unfold wordStarts
  split
  next rest heq => exact absurd ⟨rest, heq⟩ h
  next => simp

theorem wordStarts_break {c : Char} (hc : W.isWord c = false) (before rest : List Char) :
    wordStarts W (before ++ c :: rest) = wordStarts W before := by
  have hx : c ≠ 'x' := by
    rintro rfl
    rw [WordClass.x_isWord] at hc
    cases hc
  have hzero : c ≠ '0' := by
    rintro rfl
    rw [WordClass.zero_isWord] at hc
    cases hc
  cases before with
  | nil =>
      rw [List.nil_append, wordStarts_cons, hc]
      · rfl
      · rintro ⟨_, heq⟩
        exact hx (List.head_eq_of_cons_eq heq)
  | cons a before =>
      by_cases hprefix : ∃ front, a :: before = 'x' :: '0' :: front
      · obtain ⟨front, heq⟩ := hprefix
        rw [heq]
        simp only [List.cons_append, wordStarts, head?_break hc]
      · rw [List.cons_append, wordStarts_cons, wordStarts_cons hprefix]
        rintro ⟨front, heq⟩
        cases before with
        | nil =>
            simp only [List.nil_append, List.cons.injEq] at heq
            exact hzero heq.2.1
        | cons b before =>
            simp only [List.cons_append, List.cons.injEq] at heq
            exact hprefix ⟨before, by rw [heq.1, heq.2.1]⟩

theorem apart_local : Local W.isWord Apart where
  front u c front back hc := by
    unfold Apart
    rw [getLast?_break (notHex_of_break hc)]
  back front back c v hc := by
    unfold Apart
    rw [head?_break (notHex_of_break hc)]

theorem bounded_local : Local W.isWord (Bounded W) where
  front u c front back hc := by
    unfold Bounded
    rw [List.reverse_append, List.reverse_cons, List.append_assoc, List.singleton_append,
      wordStarts_break hc]
  back front back c v hc := by
    unfold Bounded
    rw [head?_break hc]

/-! ## One word -/

theorem bounded_word {front back : List Char} (hfront : AllWord W.isWord front)
    (hback : AllWord W.isWord back) :
    Bounded W front back ↔ back = [] ∧ (front = [] ∨ front = ['0', 'x']) := by
  have hend : back.head?.any W.isWord = false ↔ back = [] := by
    cases back with
    | nil => simp
    | cons c rest => simp [hback c List.mem_cons_self]
  have hstart : wordStarts W front.reverse = true ↔ front = [] ∨ front = ['0', 'x'] := by
    have hreverse : AllWord W.isWord front.reverse :=
      fun c hc => hfront c (List.mem_reverse.mp hc)
    have hsame : (front = [] ∨ front = ['0', 'x']) ↔
        (front.reverse = [] ∨ front.reverse = ['x', '0']) := by
      rw [List.reverse_eq_nil_iff, List.reverse_eq_iff]
      rfl
    rw [hsame]
    generalize front.reverse = before at hreverse
    by_cases hprefix : ∃ rest, before = 'x' :: '0' :: rest
    · obtain ⟨rest, rfl⟩ := hprefix
      cases rest with
      | nil => simp [wordStarts]
      | cons c rest =>
          have hc := hreverse c (by simp)
          simp [wordStarts, hc]
    · cases before with
      | nil => simp [wordStarts]
      | cons c rest =>
          have hc := hreverse c List.mem_cons_self
          rw [wordStarts_cons hprefix, hc]
          constructor
          · intro h
            cases h
          · rintro (heq | heq)
            · cases heq
            · exact absurd ⟨[], heq⟩ hprefix
  unfold Bounded
  rw [hend, hstart]

/-- In a word that is replaced, the key stands behind at most `0x`. -/
theorem keyWord_occurrence {K : HexKey} {w front back : List Char} (hkey : isKeyWord w = true)
    (hw : w = front ++ K.digits ++ back) : back = [] ∧ (front = [] ∨ front = ['0', 'x']) := by
  have hlength := congrArg List.length hw
  simp only [List.length_append, K.length_eq] at hlength
  have hx : isHex 'x' = false := by decide
  by_cases hprefix : ∃ blob, w = '0' :: 'x' :: blob
  · obtain ⟨blob, rfl⟩ := hprefix
    simp only [isKeyWord, isBlob, Bool.and_eq_true, beq_iff_eq] at hkey
    simp only [List.length_cons, hkey.1] at hlength
    obtain ⟨d, e, digits, hdigits⟩ : ∃ d e digits, K.digits = d :: e :: digits := by
      have hlong := K.length_eq
      rcases hdigits : K.digits with _ | ⟨d, _ | ⟨e, digits⟩⟩
      · simp [hdigits] at hlong
      · simp [hdigits] at hlong
      · exact ⟨d, e, digits, rfl⟩
    have hd : isHex d = true := K.hex d (by simp [hdigits])
    have he : isHex e = true := K.hex e (by simp [hdigits])
    rw [hdigits] at hw
    rcases front with _ | ⟨a, _ | ⟨b, _ | ⟨c, rest⟩⟩⟩
    · simp only [List.nil_append, List.cons_append, List.cons.injEq] at hw
      rw [← hw.2.1, hx] at he
      cases he
    · simp only [List.cons_append, List.nil_append, List.cons.injEq] at hw
      rw [← hw.2.1, hx] at hd
      cases hd
    · simp only [List.cons_append, List.nil_append, List.cons.injEq] at hw
      have hback : back = [] := by
        rw [← List.length_eq_zero_iff]
        simp only [List.length_cons, List.length_nil] at hlength
        omega
      exact ⟨hback, Or.inr (by rw [← hw.1, ← hw.2.1])⟩
    · simp only [List.length_cons] at hlength
      omega
  · have hblob : isBlob w = true := by
      unfold isKeyWord at hkey
      split at hkey
      next blob => exact absurd ⟨blob, rfl⟩ hprefix
      next => exact hkey
    simp only [isBlob, Bool.and_eq_true, beq_iff_eq] at hblob
    rw [hblob.1] at hlength
    constructor
    · rw [← List.length_eq_zero_iff]
      omega
    · left
      rw [← List.length_eq_zero_iff]
      omega

theorem HexKey.isKeyWord (K : HexKey) :
    Logging.isKeyWord K.digits = true ∧ Logging.isKeyWord ('0' :: 'x' :: K.digits) = true := by
  have hblob : isBlob K.digits = true := by
    simp only [isBlob, Bool.and_eq_true, beq_iff_eq, List.all_eq_true]
    exact ⟨K.length_eq, K.hex⟩
  constructor
  · unfold Logging.isKeyWord
    split
    next blob heq =>
      have hx : isHex 'x' = true := K.hex 'x' (by rw [heq]; simp)
      have hnot : isHex 'x' = false := by decide
      rw [hx] at hnot
      cases hnot
    next => exact hblob
  · exact hblob

/-- The key survives in a word exactly where it is not bounded. -/
theorem replaceKey_occurs {K : HexKey} {w : List Char} (hw : AllWord W.isWord w) :
    OccursIn Apart K.digits (replaceKey w) ↔
      OccursIn (fun front back => Apart front back ∧ ¬Bounded W front back) K.digits w := by
  have hparts : ∀ front back, w = front ++ K.digits ++ back →
      AllWord W.isWord front ∧ AllWord W.isWord back := by
    intro front back heq
    constructor
    · exact fun c hc => hw c (by rw [heq]; simp [hc])
    · exact fun c hc => hw c (by rw [heq]; simp [hc])
  by_cases hkey : isKeyWord w = true
  · have hreplaced : replaceKey w = redacted.toList := if_pos hkey
    rw [hreplaced]
    constructor
    · rintro ⟨front, back, heq, -⟩
      have hlength := congrArg List.length heq
      have hshort : redacted.toList.length = 14 := by decide
      simp only [List.length_append, K.length_eq, hshort] at hlength
      omega
    · rintro ⟨front, back, heq, -, hunbounded⟩
      obtain ⟨hfront, hback⟩ := hparts front back heq
      exact absurd ((bounded_word hfront hback).mpr (keyWord_occurrence hkey heq)) hunbounded
  · have hkept : replaceKey w = w := if_neg hkey
    rw [hkept]
    constructor
    · rintro ⟨front, back, heq, hapart⟩
      refine ⟨front, back, heq, hapart, ?_⟩
      intro hbounded
      obtain ⟨hfront, hback⟩ := hparts front back heq
      apply hkey
      obtain ⟨rfl, rfl | rfl⟩ := (bounded_word hfront hback).mp hbounded
      · rw [heq, List.nil_append, List.append_nil]
        exact K.isKeyWord.1
      · rw [heq, List.append_nil]
        exact K.isKeyWord.2
    · rintro ⟨front, back, heq, hapart, -⟩
      exact ⟨front, back, heq, hapart⟩

/-! ## A text -/

theorem scrubText_standsAlone (K : HexKey) (text : String) :
    StandsAlone K (scrubText W text) ↔ ¬Isolated W K text := by
  have hloose : Local W.isWord fun front back => Apart front back ∧ ¬Bounded W front back := by
    constructor
    · intro u c front back hc
      rw [apart_local.front u c front back hc, bounded_local.front u c front back hc]
    · intro front back c v hc
      rw [apart_local.back front back c v hc, bounded_local.back front back c v hc]
  have hwords : ∀ text : List Char,
      OccursIn Apart K.digits (mapWords W.isWord replaceKey [] text) ↔
        OccursIn (fun front back => Apart front back ∧ ¬Bounded W front back) K.digits text := by
    intro text
    induction text using word_induction W.isWord with
    | hword w hw =>
        rw [mapWords_word hw, List.nil_append]
        exact replaceKey_occurs hw
    | hbreak w c rest hw hc ih =>
        rw [mapWords_word_break hw hc, OccursIn.break_iff apart_local K.allWord hc,
          OccursIn.break_iff hloose K.allWord hc, replaceKey_occurs hw, ih]
  unfold StandsAlone scrubText Isolated
  rw [String.toList_ofList, substitute_eq_mapWords _ rfl, hwords]
  constructor
  · rintro ⟨front, back, heq, hapart, hunbounded⟩ hisolated
    exact hunbounded (hisolated front back heq hapart)
  · intro h
    by_contra hnone
    apply h
    intro front back heq hapart
    by_contra hunbounded
    exact hnone ⟨front, back, heq, hapart, hunbounded⟩

/-! ## A payload -/

variable {ν : Type}

/-- A string of a payload with its key; nothing is looked at below a skipped key. -/
inductive TextAt (skip : String → Bool) :
    Option String → LogValue ν → Option String → String → Prop where
  | here (key : Option String) (t : String) : TextAt skip key (.text t) key t
  | item {key key' : Option String} {t : String} (kind : SequenceKind)
      {values : List (LogValue ν)} {value : LogValue ν} (hmem : value ∈ values)
      (h : TextAt skip none value key' t) : TextAt skip key (.sequence kind values) key' t
  | entry {key key' : Option String} {t name : String} {entries : List (String × LogValue ν)}
      {value : LogValue ν} (hmem : (name, value) ∈ entries) (hskip : skip name = false)
      (h : TextAt skip (some name) value key' t) : TextAt skip key (.dict entries) key' t

/-- An entry of a dict at any depth; nothing is looked at below a skipped key. -/
inductive EntryAt (skip : String → Bool) : LogValue ν → String → LogValue ν → Prop where
  | here {entries : List (String × LogValue ν)} {name : String} {value : LogValue ν}
      (hmem : (name, value) ∈ entries) : EntryAt skip (.dict entries) name value
  | item (kind : SequenceKind) {values : List (LogValue ν)} {value found : LogValue ν}
      {name : String} (hmem : value ∈ values) (h : EntryAt skip value name found) :
      EntryAt skip (.sequence kind values) name found
  | inside {entries : List (String × LogValue ν)} {outer name : String}
      {value found : LogValue ν} (hmem : (outer, value) ∈ entries) (hskip : skip outer = false)
      (h : EntryAt skip value name found) : EntryAt skip (.dict entries) name found

variable (W) in
/-- What the log shows of a string. -/
def written (key : Option String) (t : String) : String :=
  if isExempt key then t else scrubText W t

theorem redactValues_eq (values : List (LogValue ν)) :
    redactValues W values = values.map (redact W none) := by
  induction values with
  | nil => rfl
  | cons value rest ih => simp [redactValues, ih]

theorem redactEntries_eq (entries : List (String × LogValue ν)) :
    redactEntries W entries = entries.map fun e => (e.1, redact W (some e.1) e.2) := by
  induction entries with
  | nil => rfl
  | cons e rest ih => simp [redactEntries, ih]

theorem redact_sensitive {key : Option String} (h : key.any sensitive = true)
    (value : LogValue ν) : redact W key value = .text redacted := by
  cases value <;> simp [redact, h]

theorem redact_text {key : Option String} (hkey : key.any sensitive = false) (t : String) :
    redact (ν := ν) W key (.text t) = .text (written W key t) := by
  unfold redact written
  rw [hkey]
  cases isExempt key <;> rfl

theorem redact_number {key : Option String} (hkey : key.any sensitive = false) (n : ν) :
    redact W key (.number n) = .number n := by
  simp [redact, hkey]

theorem redact_sequence {key : Option String} (hkey : key.any sensitive = false)
    (kind : SequenceKind) (values : List (LogValue ν)) :
    redact W key (.sequence kind values) = .sequence kind (values.map (redact W none)) := by
  simp [redact, hkey, redactValues_eq]

theorem redact_dict {key : Option String} (hkey : key.any sensitive = false)
    (entries : List (String × LogValue ν)) :
    redact W key (.dict entries) =
      .dict (entries.map fun e => (e.1, redact W (some e.1) e.2)) := by
  simp [redact, hkey, redactEntries_eq]

theorem LogValue.induction {P : LogValue ν → Prop} (text : ∀ t, P (.text t))
    (number : ∀ n, P (.number n))
    (sequence : ∀ kind values, (∀ value ∈ values, P value) → P (.sequence kind values))
    (dict : ∀ entries, (∀ e ∈ entries, P e.2) → P (.dict entries)) :
    ∀ value, P value
  | .text t => text t
  | .number n => number n
  | .sequence kind values =>
    sequence kind values fun value _ => LogValue.induction text number sequence dict value
  | .dict entries =>
    dict entries fun e _ => LogValue.induction text number sequence dict e.2
termination_by value => sizeOf value
decreasing_by
  · have hsize := List.sizeOf_lt_of_mem ‹value ∈ values›
    simp only [LogValue.sequence.sizeOf_spec]
    omega
  · have hsize := List.sizeOf_lt_of_mem ‹e ∈ entries›
    obtain ⟨name, value⟩ := e
    simp only [Prod.mk.sizeOf_spec] at hsize
    simp only [LogValue.dict.sizeOf_spec]
    omega

/-- The strings of a redacted payload are what is written of the strings that are not
below a sensitive key. -/
theorem textAt_redact {Q : String → Prop} (hredacted : ¬Q redacted) {value : LogValue ν}
    {key : Option String} (hkey : key.any sensitive = false) :
    (∃ key' t, TextAt (fun _ => false) key (redact W key value) key' t ∧ Q t) ↔
      ∃ key' t, TextAt sensitive key value key' t ∧ Q (written W key' t) := by
  induction value using LogValue.induction generalizing key with
  | text t =>
      rw [redact_text hkey]
      constructor
      · rintro ⟨_, _, h, hQ⟩
        cases h
        exact ⟨key, t, .here key t, hQ⟩
      · rintro ⟨_, _, h, hQ⟩
        cases h
        exact ⟨key, _, .here key _, hQ⟩
  | number n =>
      rw [redact_number hkey]
      constructor <;> rintro ⟨_, _, h, -⟩ <;> cases h
  | sequence kind values ih =>
      rw [redact_sequence hkey]
      constructor
      · rintro ⟨key', t, h, hQ⟩
        cases h with
        | item _ hmem h =>
            obtain ⟨value, hvalue, rfl⟩ := List.mem_map.mp hmem
            obtain ⟨found, t', htext, hQ'⟩ := (ih value hvalue rfl).mp ⟨key', t, h, hQ⟩
            exact ⟨found, t', .item kind hvalue htext, hQ'⟩
      · rintro ⟨key', t, h, hQ⟩
        cases h with
        | @item _ _ _ _ _ value hvalue h =>
            obtain ⟨found, t', htext, hQ'⟩ := (ih value hvalue rfl).mpr ⟨key', t, h, hQ⟩
            exact ⟨found, t', .item kind (List.mem_map_of_mem hvalue) htext, hQ'⟩
  | dict entries ih =>
      rw [redact_dict hkey]
      constructor
      · rintro ⟨key', t, h, hQ⟩
        cases h with
        | entry hmem _ h =>
            obtain ⟨e, he, heq⟩ := List.mem_map.mp hmem
            cases heq
            by_cases hsensitive : sensitive e.1 = true
            · rw [redact_sensitive (by simpa using hsensitive)] at h
              cases h
              exact absurd hQ hredacted
            · have hplain : (some e.1).any sensitive = false := by simpa using hsensitive
              obtain ⟨found, t', htext, hQ'⟩ := (ih e he hplain).mp ⟨key', t, h, hQ⟩
              exact ⟨found, t', .entry he (by simpa using hsensitive) htext, hQ'⟩
      · rintro ⟨key', t, h, hQ⟩
        cases h with
        | @entry _ _ _ name _ value hmem hskip h =>
            have hplain : (some name).any sensitive = false := by simpa using hskip
            obtain ⟨found, t', htext, hQ'⟩ := (ih (name, value) hmem hplain).mpr ⟨key', t, h, hQ⟩
            exact ⟨found, t', .entry (List.mem_map_of_mem hmem) rfl htext, hQ'⟩

/-- Whatever stands under a sensitive key is replaced. -/
structure SensitiveReplaced (value shown : LogValue ν) : Prop where
  replaced : ∀ name found, EntryAt (fun _ => false) shown name found →
    sensitive name = true → found = .text redacted
  kept : ∀ name found, EntryAt sensitive value name found →
    sensitive name = true → EntryAt (fun _ => false) shown name (.text redacted)

theorem redact_replaced (value : LogValue ν) (key : Option String) {name : String}
    {found : LogValue ν} (h : EntryAt (fun _ => false) (redact W key value) name found)
    (hname : sensitive name = true) : found = .text redacted := by
  by_cases hkey : key.any sensitive = true
  · rw [redact_sensitive hkey] at h
    cases h
  have hplain : key.any sensitive = false := by simpa using hkey
  induction value using LogValue.induction generalizing key with
  | text t =>
      rw [redact_text hplain] at h
      cases h
  | number n =>
      rw [redact_number hplain] at h
      cases h
  | sequence kind values ih =>
      rw [redact_sequence hplain] at h
      cases h with
      | item _ hmem h =>
          obtain ⟨value, hvalue, rfl⟩ := List.mem_map.mp hmem
          exact ih value hvalue none h (by simp) rfl
  | dict entries ih =>
      rw [redact_dict hplain] at h
      cases h with
      | here hmem =>
          obtain ⟨e, he, heq⟩ := List.mem_map.mp hmem
          cases heq
          exact redact_sensitive (by simpa using hname) e.2
      | inside hmem _ h =>
          obtain ⟨e, he, heq⟩ := List.mem_map.mp hmem
          cases heq
          by_cases hsensitive : (some e.1).any sensitive = true
          · rw [redact_sensitive hsensitive] at h
            cases h
          · exact ih e he (some e.1) h hsensitive (by simpa using hsensitive)

theorem redact_kept {value found : LogValue ν} {name : String}
    (h : EntryAt sensitive value name found) (hname : sensitive name = true)
    {key : Option String} (hkey : key.any sensitive = false) :
    EntryAt (fun _ => false) (redact W key value) name (.text redacted) := by
  induction h generalizing key with
  | @here entries name value hmem =>
      rw [redact_dict hkey]
      have hshown := List.mem_map_of_mem (f := fun e => (e.1, redact W (some e.1) e.2)) hmem
      dsimp only at hshown
      rw [redact_sensitive (by simpa using hname)] at hshown
      exact .here hshown
  | item kind hmem h ih =>
      rw [redact_sequence hkey]
      exact .item kind (List.mem_map_of_mem hmem) (ih hname rfl)
  | @inside entries outer name value found hmem hskip h ih =>
      rw [redact_dict hkey]
      have hplain : (some outer).any sensitive = false := by simpa using hskip
      exact .inside (List.mem_map_of_mem hmem) rfl (ih hname hplain)

theorem redact_redact (value : LogValue ν) (key : Option String) :
    redact W key (redact W key value) = redact W key value := by
  by_cases hkey : key.any sensitive = true
  · rw [redact_sensitive hkey, redact_sensitive hkey]
  have hplain : key.any sensitive = false := by simpa using hkey
  induction value using LogValue.induction generalizing key with
  | text t =>
      rw [redact_text hplain, redact_text hplain]
      unfold written
      cases isExempt key with
      | false => simp [scrubText_scrubText]
      | true => rfl
  | number n => rw [redact_number hplain, redact_number hplain]
  | sequence kind values ih =>
      rw [redact_sequence hplain, redact_sequence hplain, List.map_map]
      congr 1
      apply List.map_congr_left
      intro value hvalue
      exact ih value hvalue none (by simp) rfl
  | dict entries ih =>
      rw [redact_dict hplain, redact_dict hplain, List.map_map]
      congr 1
      apply List.map_congr_left
      intro e he
      have hagain : redact W (some e.1) (redact W (some e.1) e.2) = redact W (some e.1) e.2 := by
        by_cases hsensitive : (some e.1).any sensitive = true
        · rw [redact_sensitive hsensitive, redact_sensitive hsensitive]
        · exact ih e he (some e.1) hsensitive (by simpa using hsensitive)
      exact congrArg (Prod.mk e.1) hagain

/-! ## Raw keys -/

/-- The key stands in a string which is not a hash field. -/
def Exposed (K : HexKey) (value : LogValue ν) : Prop :=
  ∃ key t, TextAt (fun _ => false) none value key t ∧ isExempt key = false ∧ StandsAlone K t

variable (W) in
/-- An exposed key is not found in any string of the redacted payload. -/
def KeyRemoved (K : HexKey) (value : LogValue ν) : Prop :=
  Exposed K value →
    ¬∃ key t, TextAt (fun _ => false) none (redact W none value) key t ∧ StandsAlone K t

variable (W) in
/-- No hash field holds the key, and elsewhere it is a word of its own. -/
def KeyIsolated (K : HexKey) (value : LogValue ν) : Prop :=
  Exposed K value → ∀ key t, TextAt sensitive none value key t →
    (isExempt key = true → ¬StandsAlone K t) ∧ (isExempt key = false → Isolated W K t)

theorem redacted_holds_no_key (K : HexKey) : ¬StandsAlone K redacted := by
  rintro ⟨front, back, heq, -⟩
  have hlength := congrArg List.length heq
  have hshort : redacted.toList.length = 14 := by decide
  simp only [List.length_append, K.length_eq, hshort] at hlength
  omega

theorem keyRemoved_iff (K : HexKey) (value : LogValue ν) :
    KeyRemoved W K value ↔ KeyIsolated W K value := by
  unfold KeyRemoved KeyIsolated
  rw [textAt_redact (redacted_holds_no_key K) rfl]
  apply imp_congr_right
  intro _
  have hwritten : ∀ key t, ¬StandsAlone K (written W key t) ↔
      (isExempt key = true → ¬StandsAlone K t) ∧ (isExempt key = false → Isolated W K t) := by
    intro key t
    unfold written
    cases isExempt key with
    | false => simp [scrubText_standsAlone]
    | true => simp
  constructor
  · intro h key t htext
    rw [← hwritten]
    exact fun hfound => h ⟨key, t, htext, hfound⟩
  · rintro h ⟨key, t, htext, hfound⟩
    exact (hwritten key t).mpr (h key t htext) hfound

/-- What redaction does to every payload: raw keys that are words of their own go, values
under sensitive keys are replaced, and a second redaction changes nothing. -/
theorem redaction_of_payloads (W : WordClass) (value : LogValue ν) :
    (∀ K, KeyRemoved W K value ↔ KeyIsolated W K value) ∧
      SensitiveReplaced value (redact W none value) ∧
        redact W none (redact W none value) = redact W none value := by
  refine ⟨fun K => keyRemoved_iff K value, ⟨?_, ?_⟩, redact_redact value none⟩
  · exact fun name found h hname => redact_replaced value none h hname
  · exact fun name found h hname => redact_kept h hname rfl

/-- The part of `\w` below 128. -/
def asciiWords : WordClass where
  isWord c := c.isAlphanum || c == '_'
  ascii _ _ := rfl

def abKey : HexKey where
  digits := List.replicate 64 'a'
  length_eq := List.length_replicate
  hex := by
    intro c hc
    rw [List.eq_of_mem_replicate hc]
    decide

/-- `key_` and the key, without a boundary between them. -/
def leakingText : String := "key_" ++ String.ofList abKey.digits

def leakingPayload : LogValue Nat := .dict [("error", .text leakingText)]

/-- An underscore in front of the key keeps it in the log. -/
theorem key_behind_underscore_is_logged :
    redact asciiWords none leakingPayload = leakingPayload ∧
      ¬∀ (W : WordClass) (value : LogValue Nat) (K : HexKey), KeyRemoved W K value := by
  have hscrub : scrubText asciiWords leakingText = leakingText := by decide +kernel
  have hplain : sensitive "error" = false := by decide +kernel
  have hsame : redact asciiWords none leakingPayload = leakingPayload := by
    simp [leakingPayload, redact, redactEntries, hplain, hscrub]
  have htext : TextAt (fun _ => false) none leakingPayload (some "error") leakingText :=
    .entry List.mem_cons_self rfl (.here _ _)
  have hstands : StandsAlone abKey leakingText := by
    refine ⟨"key_".toList, [], ?_, ?_, rfl⟩
    · simp [leakingText]
    · decide
  constructor
  · exact hsame
  · intro h
    apply h asciiWords leakingPayload abKey
    · exact ⟨some "error", leakingText, htext, by decide, hstands⟩
    · rw [hsame]
      exact ⟨some "error", leakingText, htext, hstands⟩

end CryptoWallet.Logging
