import Mathlib.Data.List.Nodup
import Mathlib.Tactic.Common

/-!
# Loops over a list of keys

A worker visits the keys of a list one after another, and an exception ends the
loop.  What every visit keeps is kept by the loop; and when a visit writes the
row of its own key only, each row of a completed loop is written in its turn.
-/

namespace CryptoWallet

/-- How one run of a worker ended. -/
inductive RunEnd where
  | completed
  | raised
  deriving DecidableEq

variable {κ α δ ρ : Type}

/-- Visit the keys in order; `none` is an exception. -/
def visitAll (visit : κ → δ → Option α × δ) : List κ → δ → RunEnd × δ
  | [], s => (.completed, s)
  | key :: rest, s =>
    match visit key s with
    | (none, s') => (.raised, s')
    | (some _, s') => visitAll visit rest s'

section

variable {visit : κ → δ → Option α × δ}

theorem visitAll_raised {key : κ} {rest : List κ} {s : δ} (h : (visit key s).1 = none) :
    visitAll visit (key :: rest) s = (.raised, (visit key s).2) := by
  cases hvisit : visit key s with
  | mk outcome s' =>
      rw [hvisit] at h
      obtain rfl : outcome = none := h
      simp [visitAll, hvisit]

theorem visitAll_visited {key : κ} {rest : List κ} {s : δ} {outcome : α}
    (h : (visit key s).1 = some outcome) :
    visitAll visit (key :: rest) s = visitAll visit rest (visit key s).2 := by
  cases hvisit : visit key s with
  | mk outcome' s' =>
      rw [hvisit] at h
      obtain rfl : outcome' = some outcome := h
      simp [visitAll, hvisit]

/-- What every visit keeps is kept by the loop. -/
theorem visitAll_preserves {I : δ → Prop} {keys : List κ} {s : δ}
    (hvisit : ∀ key ∈ keys, ∀ s, I s → I (visit key s).2) (hs : I s) :
    I (visitAll visit keys s).2 := by
  induction keys generalizing s with
  | nil => exact hs
  | cons key rest ih =>
      have hnext := hvisit key List.mem_cons_self s hs
      have hrest : ∀ k ∈ rest, ∀ s, I s → I (visit k s).2 :=
        fun k hk => hvisit k (List.mem_cons_of_mem key hk)
      cases houtcome : (visit key s).1 with
      | none =>
          rw [visitAll_raised houtcome]
          exact hnext
      | some outcome =>
          rw [visitAll_visited houtcome]
          exact ih hrest hnext

variable {row : κ → δ → ρ}

/-- Every visit writes the row of its own key only. -/
def OwnRow (visit : κ → δ → Option α × δ) (row : κ → δ → ρ) : Prop :=
  ∀ key other s, other ≠ key → row other (visit key s).2 = row other s

theorem visitAll_other (hown : OwnRow visit row) {keys : List κ} {key : κ}
    (hkey : key ∉ keys) (s : δ) :
    row key (visitAll visit keys s).2 = row key s := by
  apply visitAll_preserves (I := fun s' => row key s' = row key s)
  · intro other hother s' hs'
    have hne : key ≠ other := fun heq => hkey (heq ▸ hother)
    rw [hown other key s' hne, hs']
  · rfl

/-- A visit may rely on what holds of its key at the start of the loop, if the visits of
other keys do not end it. -/
theorem visitAll_relies {I : δ → Prop} {P : κ → δ → Prop}
    (hother : ∀ key other s, other ≠ key → P other s → P other (visit key s).2)
    (hvisit : ∀ key s, I s → P key s → I (visit key s).2) {keys : List κ}
    (hnodup : keys.Nodup) {s : δ} (hs : I s) (hkeys : ∀ key ∈ keys, P key s) :
    I (visitAll visit keys s).2 := by
  induction keys generalizing s with
  | nil => exact hs
  | cons first rest ih =>
      obtain ⟨hfresh, hrest⟩ := List.nodup_cons.mp hnodup
      have hnext := hvisit first s hs (hkeys first List.mem_cons_self)
      cases houtcome : (visit first s).1 with
      | none =>
          rw [visitAll_raised houtcome]
          exact hnext
      | some outcome =>
          rw [visitAll_visited houtcome]
          apply ih hrest hnext
          intro key hkey
          have hne : key ≠ first := fun heq => hfresh (heq ▸ hkey)
          exact hother first key s hne (hkeys key (List.mem_cons_of_mem first hkey))

/-- The loop completes when no key can raise in its turn. -/
theorem visitAll_completes {P : κ → δ → Prop}
    (hother : ∀ key other s, other ≠ key → P other s → P other (visit key s).2)
    (hvisit : ∀ key s, P key s → ∃ outcome, (visit key s).1 = some outcome) {keys : List κ}
    (hnodup : keys.Nodup) {s : δ} (hkeys : ∀ key ∈ keys, P key s) :
    (visitAll visit keys s).1 = .completed := by
  induction keys generalizing s with
  | nil => rfl
  | cons first rest ih =>
      obtain ⟨hfresh, hrest⟩ := List.nodup_cons.mp hnodup
      obtain ⟨outcome, houtcome⟩ := hvisit first s (hkeys first List.mem_cons_self)
      rw [visitAll_visited houtcome]
      apply ih hrest
      intro key hkey
      have hne : key ≠ first := fun heq => hfresh (heq ▸ hkey)
      exact hother first key s hne (hkeys key (List.mem_cons_of_mem first hkey))

/-- However the loop ends, a row is as it was or as its own visit left it. -/
theorem visitAll_row_cases (hown : OwnRow visit row) {keys : List κ} (hnodup : keys.Nodup)
    (s : δ) (key : κ) :
    row key (visitAll visit keys s).2 = row key s ∨
      (key ∈ keys ∧ ∃ before, row key before = row key s ∧
        row key (visitAll visit keys s).2 = row key (visit key before).2) := by
  induction keys generalizing s with
  | nil => exact Or.inl rfl
  | cons first rest ih =>
      obtain ⟨hfresh, hrest⟩ := List.nodup_cons.mp hnodup
      have hhead : key = first → ∀ s', row key s' = row key (visit key s).2 →
          row key s' = row key s ∨ (key ∈ first :: rest ∧ ∃ before,
            row key before = row key s ∧ row key s' = row key (visit key before).2) :=
        fun heq s' hs' => Or.inr ⟨heq ▸ List.mem_cons_self, s, rfl, hs'⟩
      cases houtcome : (visit first s).1 with
      | none =>
          rw [visitAll_raised houtcome]
          by_cases hfirst : key = first
          · exact hhead hfirst _ (by rw [hfirst])
          · exact Or.inl (hown first key s hfirst)
      | some outcome =>
          rw [visitAll_visited houtcome]
          by_cases hfirst : key = first
          · apply hhead hfirst
            subst hfirst
            exact visitAll_other hown hfresh _
          · have hsame := hown first key s hfirst
            rcases ih hrest (visit first s).2 with hkept | ⟨hmem, before, hbefore, hrow⟩
            · exact Or.inl (hkept.trans hsame)
            · exact Or.inr ⟨List.mem_cons_of_mem first hmem, before, hbefore.trans hsame,
                hrow⟩

/-- In a completed loop each key has its turn: its row is then what it was at
the start, and stays what the visit made of it. -/
theorem visitAll_turn (hown : OwnRow visit row) {keys : List κ} (hnodup : keys.Nodup)
    {s : δ} (hrun : (visitAll visit keys s).1 = .completed) {key : κ}
    (hkey : key ∈ keys) :
    ∃ before outcome rest, row key before = row key s ∧
      (visit key before).1 = some outcome ∧
      (visitAll visit keys s).2 = (visitAll visit rest (visit key before).2).2 ∧
      row key (visitAll visit keys s).2 = row key (visit key before).2 := by
  induction keys generalizing s with
  | nil => simp at hkey
  | cons first rest ih =>
      obtain ⟨hfresh, hrest⟩ := List.nodup_cons.mp hnodup
      cases houtcome : (visit first s).1 with
      | none =>
          rw [visitAll_raised houtcome] at hrun
          cases hrun
      | some outcome =>
          rw [visitAll_visited houtcome] at hrun ⊢
          by_cases hfirst : key = first
          · subst hfirst
            exact ⟨s, outcome, rest, rfl, houtcome, rfl, visitAll_other hown hfresh _⟩
          · obtain ⟨before, outcome', after, hbefore, hturn⟩ :=
              ih hrest hrun ((List.mem_cons.mp hkey).resolve_left hfirst)
            exact ⟨before, outcome', after, hbefore.trans (hown first key s hfirst), hturn⟩

end
end CryptoWallet
