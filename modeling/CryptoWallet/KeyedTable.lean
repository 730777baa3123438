import Mathlib.Data.List.Nodup
import Mathlib.Data.List.Lemmas
import Mathlib.Algebra.BigOperators.Group.List.Basic
import Mathlib.Algebra.Order.BigOperators.Group.List
import Mathlib.Tactic.Abel

/-!
# Tables with a primary key

A relation is the list of its rows in insertion order together with the fact
that no two rows share a key, so a violated primary key cannot be represented.
The operations are those a relational store offers to one statement: look a
row up, insert a row unless its key is taken, overwrite the row with a given
key, and update all rows by a key-preserving function.  Besides lookups, each
operation is described by its effect on sums and selections over all rows.
-/

namespace CryptoWallet

structure Table (κ ρ : Type) (key : ρ → κ) where
  rows : List ρ
  nodup : (rows.map key).Nodup
  deriving DecidableEq

namespace Table

variable {κ ρ : Type} {key : ρ → κ}

def empty : Table κ ρ key := ⟨[], by simp⟩

@[simp] theorem empty_rows : (empty : Table κ ρ key).rows = [] := rfl

/-- Sum of a weight over all rows. -/
def total {M : Type} [AddCommGroup M] (t : Table κ ρ key) (w : ρ → M) : M :=
  (t.rows.map w).sum

/-- The rows satisfying a predicate, in insertion order. -/
def select (t : Table κ ρ key) (p : ρ → Bool) : List ρ :=
  t.rows.filter p

/-- Bulk update by a function which keeps the key. -/
def mapRows (t : Table κ ρ key) (f : ρ → ρ)
    (hf : ∀ row, key (f row) = key row) : Table κ ρ key where
  rows := t.rows.map f
  nodup := by
    have hkeys : (t.rows.map f).map key = t.rows.map key := by
      rw [List.map_map]
      apply List.map_congr_left
      intro row _
      exact hf row
    rw [hkeys]
    exact t.nodup

@[simp] theorem mapRows_rows (t : Table κ ρ key) (f : ρ → ρ)
    (hf : ∀ row, key (f row) = key row) :
    (t.mapRows f hf).rows = t.rows.map f := rfl

/-- Bulk update and deletion. -/
def filterMapRows (t : Table κ ρ key) (f : ρ → Option ρ)
    (hf : ∀ row row', f row = some row' → key row' = key row) : Table κ ρ key where
  rows := t.rows.filterMap f
  nodup := by
    have hsublist : ∀ rows : List ρ,
        ((rows.filterMap f).map key).Sublist (rows.map key) := by
      intro rows
      induction rows with
      | nil => exact .slnil
      | cons row rest ih =>
          cases hrow : f row with
          | none => simpa [hrow] using ih.cons (key row)
          | some row' => simpa [hrow, hf row row' hrow] using ih.cons_cons (key row)
    exact t.nodup.sublist (hsublist t.rows)

theorem eq_of_rows_eq {t t' : Table κ ρ key} (h : t.rows = t'.rows) :
    t = t' := by
  cases t
  cases t'
  simpa using h

theorem eq_of_mem_of_key_eq (t : Table κ ρ key) {row row' : ρ}
    (hrow : row ∈ t.rows) (hrow' : row' ∈ t.rows)
    (hkey : key row = key row') : row = row' :=
  List.inj_on_of_nodup_map t.nodup hrow hrow' hkey

/-- Under weights which are not negative no row exceeds the sum. -/
theorem le_total {M : Type} [AddCommGroup M] [PartialOrder M]
    [IsOrderedAddMonoid M] (t : Table κ ρ key) {w : ρ → M}
    (hw : ∀ row, 0 ≤ w row) {row : ρ} (hrow : row ∈ t.rows) :
    w row ≤ t.total w := by
  apply List.single_le_sum ?_ (w row) (List.mem_map_of_mem hrow)
  intro x hx
  obtain ⟨r, _, rfl⟩ := List.mem_map.mp hx
  exact hw r

theorem select_length_le_one (t : Table κ ρ key) {p : ρ → Bool}
    (hp : ∀ row ∈ t.rows, ∀ row' ∈ t.rows, p row = true → p row' = true →
      key row = key row') : (t.select p).length ≤ 1 := by
  have hnodup : (t.select p).Nodup := t.nodup.of_map.sublist List.filter_sublist
  cases hrows : t.select p with
  | nil => simp
  | cons row rest =>
      cases rest with
      | nil => simp
      | cons row' rest =>
          have hmem : ∀ r ∈ row :: row' :: rest, r ∈ t.rows ∧ p r = true := by
            intro r hr
            rw [← hrows] at hr
            exact List.mem_filter.mp hr
          obtain ⟨hrow, hprow⟩ := hmem row (by simp)
          obtain ⟨hrow', hprow'⟩ := hmem row' (by simp)
          have heq := t.eq_of_mem_of_key_eq hrow hrow' (hp row hrow row' hrow' hprow hprow')
          rw [hrows, heq] at hnodup
          simp at hnodup

variable [DecidableEq κ]

def find? (t : Table κ ρ key) (k : κ) : Option ρ :=
  t.rows.find? fun row => key row = k

/-- Insertion which does nothing when the key is taken. -/
def insert? (t : Table κ ρ key) (row : ρ) : Option (Table κ ρ key) :=
  if h : key row ∈ t.rows.map key then none
  else some {
    rows := t.rows ++ [row]
    nodup := by
      rw [List.map_append]
      simpa [List.nodup_append, t.nodup] using h }

/-- Overwrite the row which has the key of `row`. -/
def replace (t : Table κ ρ key) (row : ρ) : Table κ ρ key :=
  t.mapRows (fun old => if key old = key row then row else old) (by
    intro old
    split
    next h => exact h.symm
    next => rfl)

/-! ## Lookup -/

theorem find?_eq_some_iff (t : Table κ ρ key) {k : κ} {row : ρ} :
    t.find? k = some row ↔ row ∈ t.rows ∧ key row = k := by
  constructor
  · intro h
    exact ⟨List.mem_of_find?_eq_some h, by simpa using List.find?_some h⟩
  · rintro ⟨hmem, rfl⟩
    cases hfind : t.find? (key row) with
    | none =>
        have hnone := List.find?_eq_none.mp hfind row hmem
        simp at hnone
    | some row' =>
        have hmem' : row' ∈ t.rows := List.mem_of_find?_eq_some hfind
        have hkey' : key row' = key row := by
          simpa using List.find?_some hfind
        rw [t.eq_of_mem_of_key_eq hmem' hmem hkey']

theorem find?_eq_none_iff (t : Table κ ρ key) {k : κ} :
    t.find? k = none ↔ ∀ row ∈ t.rows, key row ≠ k := by
  simp [find?]

theorem find?_of_mem (t : Table κ ρ key) {row : ρ} (hrow : row ∈ t.rows) :
    t.find? (key row) = some row :=
  t.find?_eq_some_iff.mpr ⟨hrow, rfl⟩

theorem mem_of_find? {t : Table κ ρ key} {k : κ} {row : ρ}
    (h : t.find? k = some row) : row ∈ t.rows :=
  (t.find?_eq_some_iff.mp h).1

theorem key_of_find? {t : Table κ ρ key} {k : κ} {row : ρ}
    (h : t.find? k = some row) : key row = k :=
  (t.find?_eq_some_iff.mp h).2

theorem find?_filterMapRows (t : Table κ ρ key) {f : ρ → Option ρ}
    (hf : ∀ row row', f row = some row' → key row' = key row) (k : κ) :
    (t.filterMapRows f hf).find? k = (t.find? k).bind f := by
  cases hfind : t.find? k with
  | none =>
      rw [Option.bind_none, find?_eq_none_iff]
      intro row' hrow'
      obtain ⟨row, hrow, hmap⟩ := List.mem_filterMap.mp hrow'
      rw [hf row row' hmap]
      exact (t.find?_eq_none_iff.mp hfind) row hrow
  | some row =>
      obtain ⟨hrow, hkey⟩ := t.find?_eq_some_iff.mp hfind
      rw [Option.bind_some]
      cases hmap : f row with
      | none =>
          rw [find?_eq_none_iff]
          intro row' hrow' hkey'
          obtain ⟨other, hother, hmap'⟩ := List.mem_filterMap.mp hrow'
          have hsame : other = row := t.eq_of_mem_of_key_eq hother hrow
            ((hf other row' hmap').symm.trans (hkey'.trans hkey.symm))
          rw [hsame, hmap] at hmap'
          cases hmap'
      | some row' =>
          rw [find?_eq_some_iff]
          exact ⟨List.mem_filterMap.mpr ⟨row, hrow, hmap⟩, (hf row row' hmap).trans hkey⟩

theorem find?_mapRows (t : Table κ ρ key) (f : ρ → ρ)
    (hf : ∀ row, key (f row) = key row) (k : κ) :
    (t.mapRows f hf).find? k = (t.find? k).map f := by
  have hkeys : ∀ rows : List ρ, (rows.map f).find? (fun row => key row = k) =
      (rows.find? fun row => key row = k).map f := by
    intro rows
    rw [List.find?_map]
    simp only [Function.comp_def, hf]
  exact hkeys t.rows

@[simp] theorem empty_find? (k : κ) :
    (empty : Table κ ρ key).find? k = none := rfl

/-! ## Insertion -/

theorem insert?_eq_none_iff (t : Table κ ρ key) (row : ρ) :
    t.insert? row = none ↔ (t.find? (key row)).isSome := by
  unfold insert?
  constructor
  · intro h
    by_cases hmem : key row ∈ t.rows.map key
    · obtain ⟨row', hrow', hkey⟩ := List.mem_map.mp hmem
      rw [← hkey, t.find?_of_mem hrow']
      rfl
    · simp [hmem] at h
  · intro h
    obtain ⟨row', hrow'⟩ := Option.isSome_iff_exists.mp h
    have hmem : key row ∈ t.rows.map key :=
      List.mem_map.mpr ⟨row', mem_of_find? hrow', key_of_find? hrow'⟩
    rw [dif_pos hmem]

theorem insert?_eq_some_iff (t t' : Table κ ρ key) (row : ρ) :
    t.insert? row = some t' ↔
      t.find? (key row) = none ∧ t'.rows = t.rows ++ [row] := by
  unfold insert?
  constructor
  · intro h
    by_cases hmem : key row ∈ t.rows.map key
    · simp [hmem] at h
    · rw [dif_neg hmem] at h
      cases h
      refine ⟨t.find?_eq_none_iff.mpr ?_, rfl⟩
      intro row' hrow' hkey
      exact hmem (List.mem_map.mpr ⟨row', hrow', hkey⟩)
  · rintro ⟨hnone, hrows⟩
    have hmem : key row ∉ t.rows.map key := by
      intro hmem
      obtain ⟨row', hrow', hkey⟩ := List.mem_map.mp hmem
      exact t.find?_eq_none_iff.mp hnone row' hrow' hkey
    rw [dif_neg hmem]
    exact congrArg some (eq_of_rows_eq hrows.symm)

/-- An insertion under a free key succeeds. -/
theorem exists_insert? (t : Table κ ρ key) (row : ρ)
    (hfree : t.find? (key row) = none) : ∃ t', t.insert? row = some t' := by
  cases h : t.insert? row with
  | none =>
      have hsome := (t.insert?_eq_none_iff row).mp h
      simp [hfree] at hsome
  | some t' => exact ⟨t', rfl⟩

section Insert

variable {t t' : Table κ ρ key} {row : ρ}

theorem insert?_rows (h : t.insert? row = some t') :
    t'.rows = t.rows ++ [row] :=
  ((t.insert?_eq_some_iff t' row).mp h).2

theorem insert?_free (h : t.insert? row = some t') :
    t.find? (key row) = none :=
  ((t.insert?_eq_some_iff t' row).mp h).1

theorem mem_insert? (h : t.insert? row = some t') {r : ρ} :
    r ∈ t'.rows ↔ r ∈ t.rows ∨ r = row := by
  rw [insert?_rows h]
  simp

theorem find?_insert? (h : t.insert? row = some t') (k : κ) :
    t'.find? k = if k = key row then some row else t.find? k := by
  split
  next hk =>
    rw [hk]
    exact t'.find?_of_mem ((mem_insert? h).mpr (Or.inr rfl))
  next hk =>
    unfold find?
    rw [insert?_rows h, List.find?_append]
    have hnone : List.find? (fun r => decide (key r = k)) [row] = none := by
      simp [Ne.symm hk]
    rw [hnone, Option.or_none]

theorem total_insert? {M : Type} [AddCommGroup M]
    (h : t.insert? row = some t') (w : ρ → M) :
    t'.total w = t.total w + w row := by
  simp [total, insert?_rows h]

end Insert

/-! ## Overwriting one row -/

theorem replace_rows (t : Table κ ρ key) (row : ρ) :
    (t.replace row).rows =
      t.rows.map fun old => if key old = key row then row else old := rfl

theorem mem_replace (t : Table κ ρ key) {row old : ρ}
    (hold : t.find? (key row) = some old) {r : ρ} :
    r ∈ (t.replace row).rows ↔
      r = row ∨ (r ∈ t.rows ∧ key r ≠ key row) := by
  rw [replace_rows, List.mem_map]
  constructor
  · rintro ⟨r', hr', rfl⟩
    by_cases hkey : key r' = key row
    · exact Or.inl (by simp [hkey])
    · exact Or.inr (by simp [hkey, hr'])
  · rintro (rfl | ⟨hr, hkey⟩)
    · exact ⟨old, mem_of_find? hold, by simp [key_of_find? hold]⟩
    · exact ⟨r, hr, by simp [hkey]⟩

theorem find?_replace_self (t : Table κ ρ key) {row old : ρ}
    (hold : t.find? (key row) = some old) :
    (t.replace row).find? (key row) = some row :=
  (t.replace row).find?_of_mem ((t.mem_replace hold).mpr (Or.inl rfl))

theorem find?_replace_of_key (t : Table κ ρ key) {row old : ρ} {k : κ}
    (hkey : key row = k) (hold : t.find? k = some old) :
    (t.replace row).find? k = some row := by
  subst hkey
  exact t.find?_replace_self hold

theorem find?_replace_of_ne (t : Table κ ρ key) (row : ρ) {k : κ}
    (hk : k ≠ key row) : (t.replace row).find? k = t.find? k := by
  unfold find?
  rw [replace_rows]
  induction t.rows with
  | nil => rfl
  | cons r rest ih =>
      rw [List.map_cons, List.find?_cons, List.find?_cons, ih]
      by_cases hr : key r = key row
      · simp [hr, Ne.symm hk]
      · simp [hr]

theorem find?_replace (t : Table κ ρ key) {row old : ρ}
    (hold : t.find? (key row) = some old) (k : κ) :
    (t.replace row).find? k =
      if k = key row then some row else t.find? k := by
  split
  next hk => rw [hk, t.find?_replace_self hold]
  next hk => exact t.find?_replace_of_ne row hk

/-- Overwriting a row by itself changes nothing. -/
theorem replace_found (t : Table κ ρ key) {row : ρ}
    (h : t.find? (key row) = some row) : t.replace row = t := by
  apply eq_of_rows_eq
  rw [replace_rows]
  calc
    t.rows.map (fun old => if key old = key row then row else old) =
        t.rows.map id := by
      apply List.map_congr_left
      intro old hold
      split
      next hkey => exact (t.eq_of_mem_of_key_eq hold (mem_of_find? h) hkey).symm
      next => rfl
    _ = t.rows := List.map_id t.rows

private theorem map_replace_eq_self {rows : List ρ} {row : ρ}
    (hfresh : ∀ r ∈ rows, key r ≠ key row) :
    rows.map (fun old => if key old = key row then row else old) = rows := by
  calc
    rows.map (fun old => if key old = key row then row else old) =
        rows.map id := by
      apply List.map_congr_left
      intro r hr
      simp [hfresh r hr]
    _ = rows := List.map_id rows

/-- Overwriting a row moves every sum by the new weight minus the old. -/
theorem total_replace {M : Type} [AddCommGroup M]
    (t : Table κ ρ key) {row old : ρ}
    (hold : t.find? (key row) = some old) (w : ρ → M) :
    (t.replace row).total w = t.total w - w old + w row := by
  obtain ⟨before, after, hrows⟩ := List.append_of_mem (mem_of_find? hold)
  have hkey : key old = key row := key_of_find? hold
  have hnodup := t.nodup
  rw [hrows, List.map_append, List.map_cons, List.nodup_append] at hnodup
  obtain ⟨_, hafter, hdisjoint⟩ := hnodup
  have hbefore : ∀ r ∈ before, key r ≠ key row := by
    intro r hr
    rw [← hkey]
    exact hdisjoint (key r) (List.mem_map_of_mem hr) (key old) (by simp)
  have hrest : ∀ r ∈ after, key r ≠ key row := by
    intro r hr heq
    rw [List.nodup_cons] at hafter
    exact hafter.1 (hkey.trans heq.symm ▸ List.mem_map_of_mem hr)
  unfold total
  rw [replace_rows, hrows, List.map_append, List.map_cons,
    map_replace_eq_self hbefore, map_replace_eq_self hrest, if_pos hkey]
  simp only [List.map_append, List.map_cons, List.sum_append, List.sum_cons]
  abel

/-- Inserting a row and overwriting it is inserting the new version. -/
theorem insert?_replace {t t' : Table κ ρ key} {row row' : ρ}
    (h : t.insert? row = some t') (hkey : key row' = key row) :
    t.insert? row' = some (t'.replace row') := by
  rw [insert?_eq_some_iff]
  have hfree := insert?_free h
  refine ⟨by rw [hkey, hfree], ?_⟩
  have hfresh := t.find?_eq_none_iff.mp hfree
  rw [replace_rows, insert?_rows h, List.map_append, hkey,
    ← hkey, map_replace_eq_self (fun r hr => hkey ▸ hfresh r hr)]
  simp [hkey]

/-! ## Tables which agree under a projection -/

section Projection

variable {f : ρ → ρ} {t t' : Table κ ρ key}

theorem map_find?_eq (hf : ∀ row, key (f row) = key row)
    (h : t.rows.map f = t'.rows.map f) (k : κ) :
    (t.find? k).map f = (t'.find? k).map f := by
  have hfind : ∀ rows : List ρ, (rows.find? fun row => key row = k).map f =
      (rows.map f).find? fun row => key row = k := by
    intro rows
    rw [List.find?_map]
    simp only [Function.comp_def, hf]
  unfold find?
  rw [hfind, hfind, h]

theorem replace_map_eq (hf : ∀ row, key (f row) = key row)
    (h : t.rows.map f = t'.rows.map f) {row row' : ρ} (hrow : f row = f row') :
    (t.replace row).rows.map f = (t'.replace row').rows.map f := by
  have hkey : key row = key row' := by
    rw [← hf row, hrow, hf row']
  have hmap : ∀ (rows : List ρ) (row : ρ),
      (rows.map fun old => if key old = key row then row else old).map f =
        (rows.map f).map fun old => if key old = key row then f row else old := by
    intro rows row
    rw [List.map_map, List.map_map]
    apply List.map_congr_left
    intro old _
    simp only [Function.comp, hf]
    split <;> rfl
  rw [replace_rows, replace_rows, hmap, hmap, h, hrow, hkey]

end Projection

end Table
end CryptoWallet
