import CryptoWallet.Transaction
import Mathlib.Algebra.Order.BigOperators.Group.List
import Mathlib.Data.List.Perm.Subperm
import Mathlib.Tactic.Ring

/-!
# Queues which delay what they have visited

A worker visits the first rows which are ready, a batch at a time, and a row which it has
visited is not ready again for a while.  A row which waits sees a full batch of rows
before it at each turn, and each of them only as often as the delays allow.  Where rows
do not come back at all, the batches run through the backlog.
-/

namespace CryptoWallet

variable {α β : Type}

/-! ## A full batch goes before -/

theorem take_filter_of_waiting {p : α → Bool} {before after : List α} {row : α} {limit : Nat}
    (hready : p row = true)
    (hwaits : row ∉ ((before ++ row :: after).filter p).take limit) :
    ((before ++ row :: after).filter p).take limit = (before.filter p).take limit ∧
      limit ≤ (before.filter p).length := by
  rw [List.filter_append, List.filter_cons_of_pos hready] at hwaits ⊢
  have hfull : limit ≤ (before.filter p).length := by
    by_contra hshort
    apply hwaits
    rw [List.take_append, List.mem_append]
    right
    obtain ⟨n, hn⟩ : ∃ n, limit - (before.filter p).length = n + 1 :=
      ⟨limit - (before.filter p).length - 1, by omega⟩
    rw [hn, List.take_succ_cons]
    exact List.mem_cons_self
  exact ⟨List.take_append_of_le_length hfull, hfull⟩

theorem countP_mem_of_subset [DecidableEq α] {batch rows : List α} (h : batch ⊆ rows)
    (hbatch : batch.Nodup) (hnodup : rows.Nodup) :
    rows.countP (· ∈ batch) = batch.length := by
  rw [List.countP_eq_length_filter]
  apply List.Perm.length_eq
  apply (List.perm_ext_iff_of_nodup (hnodup.filter _) hbatch).mpr
  intro row
  simp only [List.mem_filter, decide_eq_true_eq]
  exact ⟨fun hboth => hboth.2, fun hmem => ⟨h hmem, hmem⟩⟩

theorem countP_map_add {p : β → Bool} {q r : α → Bool} {f : α → β} {rows : List α}
    (h : ∀ row, (p (f row)).toNat + (q row).toNat = (r row).toNat) :
    (rows.map f).countP p + rows.countP q = rows.countP r := by
  induction rows with
  | nil => rfl
  | cons row rest ih =>
      have hfirst := h row
      rw [List.map_cons, List.countP_cons, List.countP_cons, List.countP_cons]
      cases hp : p (f row) <;> cases hq : q row <;> cases hr : r row <;>
        simp only [hp, hq, hr, Bool.toNat_true, Bool.toNat_false, if_true,
          Bool.false_eq_true, if_false] at hfirst ⊢ <;> omega

/-- What a visit adds is counted once for each row of the batch. -/
theorem sum_visited [DecidableEq α] {batch rows : List α} (h : batch.Sublist rows)
    (hnodup : rows.Nodup) (visit : α → α) (visits : α → Nat)
    (hvisit : ∀ row ∈ batch, visits (visit row) = visits row + 1) :
    ((rows.map fun row => if row ∈ batch then visit row else row).map visits).sum =
      (rows.map visits).sum + batch.length := by
  rw [← countP_mem_of_subset h.subset (h.nodup hnodup) hnodup]
  clear h hnodup
  induction rows with
  | nil => rfl
  | cons row rest ih =>
      rw [List.map_cons, List.map_cons, List.sum_cons, ih, List.map_cons, List.sum_cons,
        List.countP_cons]
      by_cases hmem : row ∈ batch
      · simp [hmem, hvisit row hmem]
        omega
      · simp [hmem]
        omega

theorem sum_le_of_forall₂ {rows : List α} {rows' : List β} {visits : α → Nat}
    {visits' : β → Nat} {extra : α → Nat}
    (h : List.Forall₂ (fun row row' => visits' row' ≤ visits row + extra row) rows rows') :
    (rows'.map visits').sum ≤ (rows.map visits).sum + (rows.map extra).sum := by
  induction h with
  | nil => simp
  | cons hfirst hrest ih =>
      simp only [List.map_cons, List.sum_cons]
      omega

theorem sum_ite_const (p : α → Bool) (c : Nat) (rows : List α) :
    (rows.map fun row => if p row then c else 0).sum = rows.countP p * c := by
  induction rows with
  | nil => simp
  | cons row rest ih =>
      rw [List.map_cons, List.sum_cons, ih, List.countP_cons]
      cases p row <;> simp
      ring

/-! ## Batches which run through a backlog -/

theorem length_take_of_waiting {rows : List α} {row : α} {limit : Nat} (hrow : row ∈ rows)
    (hwaits : row ∉ rows.take limit) : (rows.take limit).length = limit := by
  rw [List.length_take, Nat.min_eq_left]
  by_contra hshort
  apply hwaits
  rw [List.take_of_length_le (by omega)]
  exact hrow

/-- Each turn serves what waits, or takes a full batch off the backlog; so it is served
once the turns come to the backlog. -/
theorem served_in_turn {σ τ : Type} {step : τ → σ → σ} {admitted : σ → τ → Prop}
    {served : σ → Prop} {limit : Nat} (I waits : σ → Prop) (backlog : σ → Nat)
    (hkept : ∀ s t, I s → admitted s t → I (step t s))
    (hturn : ∀ s t, I s → admitted s t → waits s →
      served (step t s) ∨ (waits (step t s) ∧ backlog (step t s) + limit ≤ backlog s))
    (hserved : ∀ s t, I s → admitted s t → served s → served (step t s))
    (hsome : ∀ s, I s → waits s → 0 < backlog s) {init : σ} (hinit : I init)
    (hstart : served init ∨ waits init) {steps : List τ}
    (hsteps : AdmittedRun step admitted init steps)
    (hlong : backlog init ≤ limit * steps.length) : served (runSteps step init steps) := by
  induction steps generalizing init with
  | nil =>
      rcases hstart with hdone | hwaits
      · exact hdone
      · have hpositive := hsome init hinit hwaits
        rw [List.length_nil, Nat.mul_zero] at hlong
        omega
  | cons t rest ih =>
      obtain ⟨hadmitted, hrest⟩ := hsteps
      have hnext := hkept init t hinit hadmitted
      -- what is served stays so, however long the rest is
      have hdone : served (step t init) → served (runSteps step init (t :: rest)) := by
        intro hdone
        have hboth : I (runSteps step (step t init) rest) ∧
            served (runSteps step (step t init) rest) := by
          apply AdmittedRun.invariant (I := fun s => I s ∧ served s) ?_ ⟨hnext, hdone⟩ hrest
          exact fun s t h hadmitted =>
            ⟨hkept s t h.1 hadmitted, hserved s t h.1 hadmitted h.2⟩
        exact hboth.2
      rcases hstart with hbefore | hwaits
      · exact hdone (hserved init t hinit hadmitted hbefore)
      · rcases hturn init t hinit hadmitted hwaits with hnow | ⟨hlater, hless⟩
        · exact hdone hnow
        · apply ih hnext (Or.inr hlater) hrest
          rw [List.length_cons, Nat.mul_succ] at hlong
          omega

/-! ## Delays -/

/-- From the visit number `settle` on, visits are at least `pace` apart: these are the
visits since `start`, the time of which is at most `now`, and none comes before `next`. -/
structure Paced (pace settle start now visits next : Nat) : Prop where
  past : start + pace * (visits - settle) ≤ now
  later : settle ≤ visits → start + pace * (visits + 1 - settle) ≤ next

section Paced

variable {pace settle start now visits next : Nat}

theorem Paced.begin (hsettle : 0 < settle) (start next : Nat) :
    Paced pace settle start start 0 next where
  past := by simp
  later := by
    intro hzero
    omega

theorem Paced.wait {now' : Nat} (h : Paced pace settle start now visits next)
    (hnow : now ≤ now') : Paced pace settle start now' visits next :=
  ⟨h.past.trans hnow, h.later⟩

theorem Paced.visit {now' next' : Nat} (h : Paced pace settle start now visits next)
    (hnow : now ≤ now') (hready : next ≤ now')
    (hnext : settle ≤ visits + 1 → now' + pace ≤ next') :
    Paced pace settle start now' (visits + 1) next' := by
  have hpast : start + pace * (visits + 1 - settle) ≤ now' := by
    by_cases hsettled : settle ≤ visits
    · exact (h.later hsettled).trans hready
    · have hnone : visits + 1 - settle = 0 := by omega
      have hbefore := h.past
      rw [hnone]
      omega
  refine ⟨hpast, ?_⟩
  intro hsettled
  have hmore : visits + 1 + 1 - settle = (visits + 1 - settle) + 1 := by omega
  have hdelay := hnext hsettled
  rw [hmore, Nat.mul_succ]
  omega

theorem Paced.visits_le (h : Paced pace settle start now visits next) (hpace : 0 < pace) :
    visits ≤ settle + (now - start) / pace := by
  have hpast := h.past
  have hdiv : visits - settle ≤ (now - start) / pace := by
    rw [Nat.le_div_iff_mul_le hpace, Nat.mul_comm]
    omega
  omega

end Paced

end CryptoWallet
