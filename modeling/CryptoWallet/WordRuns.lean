import Mathlib.Data.List.Basic
import Mathlib.Tactic.Common

/-!
# Substituting whole words

A text is cut into words at the characters that belong to none.  A substitution
replaces words and keeps the breaks.  What a word may contain is then found in one of
the words, and a substitution whose replacements it leaves alone is idempotent.
-/

namespace CryptoWallet.WordRuns

variable {α : Type} (isWord : α → Bool)

def AllWord (text : List α) : Prop := ∀ c ∈ text, isWord c = true

/-- Replaces every word; `word` is the part of the current one that has been read. -/
def mapWords (g : List α → List α) (word : List α) : List α → List α
  | [] => g word
  | c :: rest =>
    if isWord c then mapWords g (word ++ [c]) rest else g word ++ c :: mapWords g [] rest

variable {isWord}

theorem AllWord.append {u v : List α} (hu : AllWord isWord u) (hv : AllWord isWord v) :
    AllWord isWord (u ++ v) := by
  intro c hc
  rcases List.mem_append.mp hc with hleft | hright
  · exact hu c hleft
  · exact hv c hright

/-- A text is one word, or a word, a break and another text. -/
theorem word_induction (isWord : α → Bool) {P : List α → Prop}
    (hword : ∀ w, AllWord isWord w → P w)
    (hbreak : ∀ w c rest, AllWord isWord w → isWord c = false → P rest → P (w ++ c :: rest))
    (text : List α) : P text := by
  have hall : ∀ (rest w : List α), AllWord isWord w → P (w ++ rest) := by
    intro rest
    induction rest with
    | nil =>
        intro w hw
        rw [List.append_nil]
        exact hword w hw
    | cons c rest ih =>
        intro w hw
        by_cases hc : isWord c = true
        · have hlonger : AllWord isWord (w ++ [c]) :=
            hw.append fun d hd => by rw [List.mem_singleton.mp hd, hc]
          have happended := ih (w ++ [c]) hlonger
          rwa [List.append_assoc] at happended
        · have hnone : AllWord isWord ([] : List α) := fun d hd => by cases hd
          exact hbreak w c rest hw (by simpa using hc) (ih [] hnone)
  exact hall text [] fun d hd => by cases hd

variable {g : List α → List α}

theorem mapWords_word {u : List α} (hu : AllWord isWord u) (word : List α) :
    mapWords isWord g word u = g (word ++ u) := by
  induction u generalizing word with
  | nil => simp [mapWords]
  | cons c rest ih =>
      have hc := hu c List.mem_cons_self
      have hrest := ih (fun d hd => hu d (List.mem_cons_of_mem c hd)) (word ++ [c])
      simp [mapWords, hc, hrest]

theorem mapWords_append_break {c : α} (hc : isWord c = false) (u v word : List α) :
    mapWords isWord g word (u ++ c :: v) =
      mapWords isWord g word u ++ c :: mapWords isWord g [] v := by
  induction u generalizing word with
  | nil => simp [mapWords, hc]
  | cons d rest ih =>
      simp only [List.cons_append, mapWords]
      split
      · exact ih (word ++ [d])
      · rw [ih [], List.append_assoc, List.cons_append]

theorem mapWords_word_break {w : List α} {c : α} (hw : AllWord isWord w)
    (hc : isWord c = false) (rest : List α) :
    mapWords isWord g [] (w ++ c :: rest) = g w ++ c :: mapWords isWord g [] rest := by
  rw [mapWords_append_break hc, mapWords_word hw, List.nil_append]

/-- It is enough that the words which are put in are left alone. -/
theorem mapWords_idempotent
    (hg : ∀ w, AllWord isWord w → mapWords isWord g [] (g w) = g w) (text : List α) :
    mapWords isWord g [] (mapWords isWord g [] text) = mapWords isWord g [] text := by
  induction text using word_induction isWord with
  | hword w hw => rw [mapWords_word hw, List.nil_append, hg w hw]
  | hbreak w c rest hw hc ih =>
      rw [mapWords_word_break hw hc, mapWords_append_break hc, hg w hw, ih]

/-! ## Occurrences -/

/-- `k` occurs between two parts in this relation. -/
def OccursIn (between : List α → List α → Prop) (k text : List α) : Prop :=
  ∃ front back, text = front ++ k ++ back ∧ between front back

variable (isWord) in
/-- Nothing beyond the next break is looked at. -/
structure Local (between : List α → List α → Prop) : Prop where
  front : ∀ (u : List α) (c : α) (front back : List α), isWord c = false →
    (between (u ++ c :: front) back ↔ between front back)
  back : ∀ (front back : List α) (c : α) (v : List α), isWord c = false →
    (between front (back ++ c :: v) ↔ between front back)

variable {between : List α → List α → Prop} {k : List α}

/-- An occurrence of word characters lies on one side of a break. -/
theorem OccursIn.break_iff (hlocal : Local isWord between) (hk : AllWord isWord k)
    {u v : List α} {c : α} (hc : isWord c = false) :
    OccursIn between k (u ++ c :: v) ↔ OccursIn between k u ∨ OccursIn between k v := by
  have hnot : c ∉ k := by
    intro hmem
    rw [hk c hmem] at hc
    cases hc
  constructor
  · rintro ⟨front, back, htext, hbetween⟩
    rcases List.append_eq_append_iff.mp htext with ⟨m, hm, hrest⟩ | ⟨m, hm, hrest⟩
    · cases m with
      | nil =>
          -- The occurrence ends at the break.
          rw [List.append_nil] at hm
          rw [List.nil_append] at hrest
          rw [← hrest] at hbetween
          left
          refine ⟨front, [], ?_, (hlocal.back front [] c v hc).mp hbetween⟩
          rw [List.append_nil, hm]
      | cons d m =>
          rw [List.cons_append, List.cons.injEq] at hrest
          obtain ⟨rfl, rfl⟩ := hrest
          rcases List.append_eq_append_iff.mp hm with ⟨x, hx, hk'⟩ | ⟨x, hx, hk'⟩
          · exfalso
            apply hnot
            rw [hk']
            simp
          · cases x with
            | nil =>
                exfalso
                apply hnot
                rw [List.nil_append] at hk'
                rw [← hk']
                exact List.mem_cons_self
            | cons e x =>
                rw [List.cons_append, List.cons.injEq] at hk'
                obtain ⟨rfl, rfl⟩ := hk'
                right
                rw [hx] at hbetween
                exact ⟨x, back, rfl, (hlocal.front u c x back hc).mp hbetween⟩
    · left
      rw [hrest] at hbetween
      exact ⟨front, m, hm, (hlocal.back front m c v hc).mp hbetween⟩
  · rintro (⟨front, back, htext, hbetween⟩ | ⟨front, back, htext, hbetween⟩)
    · refine ⟨front, back ++ c :: v, ?_, (hlocal.back front back c v hc).mpr hbetween⟩
      simp [htext]
    · refine ⟨u ++ c :: front, back, ?_, (hlocal.front u c front back hc).mpr hbetween⟩
      simp [htext]

end CryptoWallet.WordRuns
