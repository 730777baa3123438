import CryptoWallet.KeyedTable
import Mathlib.Algebra.BigOperators.Group.Finset.Piecewise
import Mathlib.Algebra.Order.BigOperators.Group.Finset

/-!
# Sums over the rows of a table

A sum over all rows is the sum of what is found under the keys, and the sum of what falls
to each class when every row belongs to just one.  Two sums compare when the rows of one
table are named by rows of the other.
-/

namespace CryptoWallet

variable {ι α M : Type} [AddCommGroup M]

/-- Every row belongs to one of the classes and to no other. -/
def Sorted [DecidableEq ι] (belongs : ι → α → Bool) (classes : Finset ι) (rows : List α) :
    Prop :=
  ∀ row ∈ rows, ∃ i ∈ classes, ∀ j, belongs j row = decide (j = i)

/-- The classes of finitely many rows are finitely many. -/
theorem exists_sorted [DecidableEq ι] {belongs : ι → α → Bool} {rows : List α}
    (h : ∀ row ∈ rows, ∃ i, ∀ j, belongs j row = decide (j = i)) (some : Finset ι) :
    ∃ classes, some ⊆ classes ∧ Sorted belongs classes rows := by
  induction rows with
  | nil => exact ⟨some, Finset.Subset.refl some, by simp [Sorted]⟩
  | cons row rest ih =>
      obtain ⟨i, hi⟩ := h row List.mem_cons_self
      obtain ⟨classes, hsome, hrest⟩ :=
        ih fun other hother => h other (List.mem_cons_of_mem _ hother)
      refine ⟨insert i classes, hsome.trans (Finset.subset_insert i classes), ?_⟩
      intro other hother
      rcases List.mem_cons.mp hother with rfl | hother
      · exact ⟨i, Finset.mem_insert_self i classes, hi⟩
      · obtain ⟨j, hj, hbelongs⟩ := hrest other hother
        exact ⟨j, Finset.mem_insert_of_mem hj, hbelongs⟩

theorem sum_classes [DecidableEq ι] {belongs : ι → α → Bool} {classes : Finset ι}
    {rows : List α} (h : Sorted belongs classes rows) (w : α → M) :
    ∑ i ∈ classes, ((rows.filter (belongs i)).map w).sum = (rows.map w).sum := by
  induction rows with
  | nil => simp
  | cons row rest ih =>
      obtain ⟨i, hi, hbelongs⟩ := h row List.mem_cons_self
      have hrest := ih fun other hother => h other (List.mem_cons_of_mem _ hother)
      have hsplit : ∀ j, (((row :: rest).filter (belongs j)).map w).sum =
          (if j = i then w row else 0) + ((rest.filter (belongs j)).map w).sum := by
        intro j
        rw [List.filter_cons, hbelongs]
        by_cases hj : j = i <;> simp [hj]
      rw [Finset.sum_congr rfl fun j _ => hsplit j, Finset.sum_add_distrib, hrest,
        Finset.sum_ite_eq' classes i, if_pos hi, List.map_cons, List.sum_cons]

namespace Table

variable {κ ρ : Type} {key : ρ → κ}

/-- What a lookup contributes. -/
def weightAt [DecidableEq κ] (t : Table κ ρ key) (w : ρ → M) (k : κ) : M :=
  ((t.find? k).map w).getD 0

theorem sum_total (t : Table κ ρ key) (s : Finset ι) (w : ι → ρ → M) :
    ∑ i ∈ s, t.total (w i) = t.total fun row => ∑ i ∈ s, w i row := by
  unfold total
  induction t.rows with
  | nil => simp
  | cons row rest ih =>
      simp only [List.map_cons, List.sum_cons]
      rw [Finset.sum_add_distrib, ih]

variable [DecidableEq κ] {t : Table κ ρ key}

theorem weightAt_of_find? {k : κ} {row : ρ} (h : t.find? k = some row) (w : ρ → M) :
    t.weightAt w k = w row := by
  simp [weightAt, h]

theorem weightAt_of_none {k : κ} (h : t.find? k = none) (w : ρ → M) : t.weightAt w k = 0 := by
  simp [weightAt, h]

theorem filter_key_of_mem {row : ρ} (hrow : row ∈ t.rows) :
    t.rows.filter (fun other => decide (key other = key row)) = [row] := by
  obtain ⟨before, after, hrows⟩ := List.append_of_mem hrow
  have hnodup := t.nodup
  rw [hrows, List.map_append, List.map_cons, List.nodup_append] at hnodup
  obtain ⟨_, hafter, hdisjoint⟩ := hnodup
  have hbefore : before.filter (fun other => decide (key other = key row)) = [] := by
    rw [List.filter_eq_nil_iff]
    intro other hother
    simpa using hdisjoint _ (List.mem_map_of_mem hother) _ List.mem_cons_self
  have hlater : after.filter (fun other => decide (key other = key row)) = [] := by
    rw [List.filter_eq_nil_iff]
    intro other hother hsame
    have hkey := of_decide_eq_true hsame
    exact (List.nodup_cons.mp hafter).1 (hkey ▸ List.mem_map_of_mem hother)
  rw [hrows, List.filter_append, List.filter_cons_of_pos (by simp), hbefore, hlater,
    List.nil_append]

theorem sum_weightAt {keys : Finset κ} (hkeys : ∀ row ∈ t.rows, key row ∈ keys)
    (w : ρ → M) : ∑ k ∈ keys, t.weightAt w k = t.total w := by
  have hsorted : Sorted (fun k row => decide (key row = k)) keys t.rows := by
    intro row hrow
    refine ⟨key row, hkeys row hrow, ?_⟩
    intro k
    rw [decide_eq_decide]
    exact eq_comm
  rw [total, ← sum_classes hsorted w]
  apply Finset.sum_congr rfl
  intro k _
  cases hfind : t.find? k with
  | none =>
      rw [weightAt_of_none hfind, List.filter_eq_nil_iff.mpr]
      · rfl
      · intro row hrow
        rw [find?_eq_none_iff] at hfind
        simpa using hfind row hrow
  | some row =>
      have hkey := key_of_find? hfind
      subst hkey
      rw [weightAt_of_find? hfind, filter_key_of_mem (mem_of_find? hfind)]
      simp

/-- One table is covered by another if each of its rows is by a row which names it. -/
theorem total_le_total {κ' ρ' : Type} {key' : ρ' → κ'} {t' : Table κ' ρ' key'}
    [PartialOrder M] [IsOrderedAddMonoid M] {w : ρ → M} {w' : ρ' → M} (name : ρ' → κ)
    (hw' : ∀ row', 0 ≤ w' row')
    (h : ∀ row ∈ t.rows, w row ≠ 0 → ∃ row' ∈ t'.rows, name row' = key row ∧ w row ≤ w' row') :
    t.total w ≤ t'.total w' := by
  let names : Finset κ := (t.rows.map key).toFinset ∪ (t'.rows.map name).toFinset
  have hkeys : ∀ row ∈ t.rows, key row ∈ names := by
    intro row hrow
    exact Finset.mem_union_left _ (List.mem_toFinset.mpr (List.mem_map_of_mem hrow))
  have hsorted : Sorted (fun k row' => decide (name row' = k)) names t'.rows := by
    intro row' hrow'
    refine ⟨name row', ?_, ?_⟩
    · exact Finset.mem_union_right _ (List.mem_toFinset.mpr (List.mem_map_of_mem hrow'))
    · intro k
      rw [decide_eq_decide]
      exact eq_comm
  rw [← sum_weightAt hkeys, total, ← sum_classes hsorted]
  apply Finset.sum_le_sum
  intro k _
  have hnonneg : ∀ x ∈ (t'.rows.filter fun row' => decide (name row' = k)).map w', 0 ≤ x := by
    intro x hx
    obtain ⟨row', _, rfl⟩ := List.mem_map.mp hx
    exact hw' row'
  cases hfind : t.find? k with
  | none =>
      rw [weightAt_of_none hfind]
      exact List.sum_nonneg hnonneg
  | some row =>
      rw [weightAt_of_find? hfind]
      by_cases hzero : w row = 0
      · rw [hzero]
        exact List.sum_nonneg hnonneg
      · obtain ⟨row', hrow', hname, hle⟩ := h row (mem_of_find? hfind) hzero
        have hmem : row' ∈ t'.rows.filter fun row' => decide (name row' = k) := by
          rw [List.mem_filter, decide_eq_true_eq]
          exact ⟨hrow', hname.trans (key_of_find? hfind)⟩
        exact hle.trans (List.single_le_sum hnonneg _ (List.mem_map_of_mem hmem))

end Table

end CryptoWallet
