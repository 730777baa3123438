import CryptoWallet.Transaction
import Mathlib.Data.Fintype.EquivFin
import Mathlib.Data.Fintype.Card

/-!
# Row locks and deadlocks

A transaction asks for rows one after another and keeps every row it has got
until it ends.  It waits while the row it asks for belongs to another.  A state
is deadlocked when transactions wait for each other in a circle.

Acquiring in an order without circles excludes deadlocks.  For transactions
which ask for at most two rows the converse holds: a circle in the order is a
deadlock some interleaving reaches.
-/

namespace CryptoWallet.LockOrder

variable {ι ρ : Type}

/-! ## Interleavings -/

/-- The rows acquired by each transaction so far, counted along its program;
`none` once it has ended. -/
abbrev State (ι : Type) := ι → Option Nat

def start : State ι := fun _ => some 0

def Holds (program : ι → List ρ) (s : State ι) (i : ι) (row : ρ) : Prop :=
  ∃ n, s i = some n ∧ row ∈ (program i).take n

def Wants (program : ι → List ρ) (s : State ι) (i : ι) (row : ρ) : Prop :=
  ∃ n, s i = some n ∧ (program i)[n]? = some row

section Step

variable [DecidableEq ι]

/-- One transaction acquires its next row, or ends and releases its rows. -/
inductive Step (program : ι → List ρ) : State ι → State ι → Prop where
  | acquire {s : State ι} {i : ι} {n : Nat} {row : ρ} (running : s i = some n)
      (next : (program i)[n]? = some row)
      (free : ∀ j, j ≠ i → ¬Holds program s j row) :
      Step program s (Function.update s i (some (n + 1)))
  | finish {s : State ι} (i : ι) : Step program s (Function.update s i none)

def Reachable (program : ι → List ρ) (s : State ι) : Prop :=
  Relation.ReflTransGen (Step program) start s

end Step

def WaitsFor (program : ι → List ρ) (s : State ι) (i j : ι) : Prop :=
  i ≠ j ∧ ∃ row, Wants program s i row ∧ Holds program s j row

def Deadlocked (program : ι → List ρ) (s : State ι) : Prop :=
  ∃ i, Relation.TransGen (WaitsFor program s) i i

/-- Some transaction acquires the first row before the second. -/
def Before (program : ι → List ρ) (row row' : ρ) : Prop :=
  ∃ i, [row, row'].Sublist (program i)

def Acyclic (program : ι → List ρ) : Prop :=
  ∀ row, ¬Relation.TransGen (Before program) row row

/-! ## An order without circles -/

theorem before_of_holds_of_wants {program : ι → List ρ} {s : State ι} {i : ι}
    {row row' : ρ} (hholds : Holds program s i row)
    (hwants : Wants program s i row') : Before program row row' := by
  obtain ⟨n, hn, hrow⟩ := hholds
  obtain ⟨m, hm, hrow'⟩ := hwants
  rw [hn, Option.some.injEq] at hm
  subst hm
  obtain ⟨hlt, hget⟩ := List.getElem?_eq_some_iff.mp hrow'
  have hdrop : row' ∈ (program i).drop n := by
    rw [List.drop_eq_getElem_cons hlt, hget]
    exact List.mem_cons_self
  have happend := (List.singleton_sublist.mpr hrow).append
    (List.singleton_sublist.mpr hdrop)
  rw [List.take_append_drop] at happend
  exact ⟨i, happend⟩

/-- Along the transactions of a circle the rows are acquired in one direction:
what the first one holds comes before what the last one wants. -/
theorem before_of_waits {program : ι → List ρ} {s : State ι} {i k : ι}
    {row row' : ρ} (hwaits : Relation.ReflTransGen (WaitsFor program s) i k)
    (hholds : Holds program s i row) (hwants : Wants program s k row') :
    Relation.TransGen (Before program) row row' := by
  induction hwaits generalizing row' with
  | refl => exact Relation.TransGen.single (before_of_holds_of_wants hholds hwants)
  | tail _ hwait ih =>
      obtain ⟨_, mid, hmid, hheld⟩ := hwait
      exact (ih hmid).tail (before_of_holds_of_wants hheld hwants)

theorem not_deadlocked_of_acyclic {program : ι → List ρ} (h : Acyclic program)
    (s : State ι) : ¬Deadlocked program s := by
  rintro ⟨i, hcircle⟩
  obtain ⟨k, hwaits, _, row, hwants, hholds⟩ := Relation.TransGen.tail'_iff.mp hcircle
  exact h row (before_of_waits hwaits hholds hwants)

/-! ## A circle is a reachable deadlock -/

/-- If everything is followed by something, something follows itself. -/
theorem exists_circle {α : Type} [Finite α] [Nonempty α] {R : α → α → Prop}
    (hnext : ∀ a, ∃ b, R a b) : ∃ a, Relation.TransGen R a a := by
  by_contra hnone
  have htrans : IsTrans α (Function.swap (Relation.TransGen R)) :=
    ⟨fun _ _ _ hab hbc => hbc.trans hab⟩
  have hirrefl : Std.Irrefl (Function.swap (Relation.TransGen R)) :=
    ⟨fun a ha => hnone ⟨a, ha⟩⟩
  have hwf := Finite.wellFounded_of_trans_of_irrefl
    (Function.swap (Relation.TransGen R))
  have hfalse : α → False := by
    intro a
    induction a using hwf.induction with
    | _ a ih =>
        obtain ⟨b, hb⟩ := hnext a
        exact ih b (Relation.TransGen.single hb)
  exact hfalse (Classical.arbitrary α)

theorem before_iff_of_length {program : ι → List ρ}
    (hlength : ∀ i, (program i).length ≤ 2) {row row' : ρ} :
    Before program row row' ↔ ∃ i, program i = [row, row'] := by
  constructor
  · rintro ⟨i, hsublist⟩
    exact ⟨i, (hsublist.eq_of_length_le (hlength i)).symm⟩
  · rintro ⟨i, hprogram⟩
    exact ⟨i, by rw [hprogram]⟩

/-- The rows of a circle. -/
def OnCircle (program : ι → List ρ) (row : ρ) : Prop :=
  Relation.TransGen (Before program) row row

theorem OnCircle.next {program : ι → List ρ} {row : ρ}
    (h : OnCircle program row) :
    ∃ row', OnCircle program row' ∧ Before program row row' := by
  obtain ⟨row', hbefore, hrest⟩ := Relation.TransGen.head'_iff.mp h
  exact ⟨row', Relation.TransGen.tail'_iff.mpr ⟨row, hrest, hbefore⟩, hbefore⟩

section Circle

variable [DecidableEq ι] {program : ι → List ρ} {κ : Type}

/-- The state in which the chosen transactions have acquired one row. -/
def oneAcquired (owner : κ → ι) (chosen : Finset κ) : State ι :=
  fun i => if ∃ x ∈ chosen, owner x = i then some 1 else some 0

theorem oneAcquired_insert [DecidableEq κ] {owner : κ → ι} (x : κ) (chosen : Finset κ) :
    oneAcquired owner (insert x chosen) =
      Function.update (oneAcquired owner chosen) (owner x) (some (0 + 1)) := by
  funext i
  by_cases hi : i = owner x
  · subst hi
    simp [oneAcquired]
  · simp [oneAcquired, Function.update_of_ne hi, Ne.symm hi]

/-- The chosen transactions hold their first rows and nothing else is held. -/
theorem holds_oneAcquired {owner : κ → ι} {row row' : κ → ρ}
    (howner : ∀ x, program (owner x) = [row x, row' x]) {chosen : Finset κ}
    {j : ι} {r : ρ} (h : Holds program (oneAcquired owner chosen) j r) :
    ∃ y ∈ chosen, owner y = j ∧ r = row y := by
  obtain ⟨n, hn, hmem⟩ := h
  by_cases hchosen : ∃ y ∈ chosen, owner y = j
  · obtain ⟨y, hy, rfl⟩ := hchosen
    have hone : oneAcquired owner chosen (owner y) = some 1 :=
      if_pos ⟨y, hy, rfl⟩
    rw [hone, Option.some.injEq] at hn
    rw [← hn, howner y, List.take_succ_cons, List.take_zero,
      List.mem_singleton] at hmem
    exact ⟨y, hy, rfl, hmem⟩
  · have hzero : oneAcquired owner chosen j = some 0 := if_neg hchosen
    rw [hzero, Option.some.injEq] at hn
    simp [← hn] at hmem

theorem reachable_oneAcquired [DecidableEq κ] {owner : κ → ι} {row row' : κ → ρ}
    (howner : ∀ x, program (owner x) = [row x, row' x])
    (hrow : Function.Injective row) (chosen : Finset κ) :
    Reachable program (oneAcquired owner chosen) := by
  have hinjective : Function.Injective owner := by
    intro x y hxy
    have hlists := howner x
    rw [hxy, howner y] at hlists
    exact hrow (List.cons.inj hlists).1.symm
  induction chosen using Finset.induction_on with
  | empty => exact Relation.ReflTransGen.refl
  | insert x chosen hx ih =>
      have hrunning : oneAcquired owner chosen (owner x) = some 0 := by
        apply if_neg
        rintro ⟨y, hy, heq⟩
        exact hx (hinjective heq ▸ hy)
      have hnext : (program (owner x))[0]? = some (row x) := by
        rw [howner x, List.getElem?_cons_zero]
      have hfree : ∀ j, j ≠ owner x →
          ¬Holds program (oneAcquired owner chosen) j (row x) := by
        intro j hj hholds
        obtain ⟨y, _, hy, heq⟩ := holds_oneAcquired howner hholds
        exact hj (hrow heq ▸ hy.symm)
      rw [oneAcquired_insert]
      exact ih.tail (Step.acquire hrunning hnext hfree)

theorem waitsFor_oneAcquired {owner : κ → ι} {row row' : κ → ρ}
    (howner : ∀ x, program (owner x) = [row x, row' x])
    (hdistinct : ∀ x, row x ≠ row' x) {chosen : Finset κ} {x y : κ}
    (hx : x ∈ chosen) (hy : y ∈ chosen) (hnext : row' x = row y) :
    WaitsFor program (oneAcquired owner chosen) (owner x) (owner y) := by
  have hone : ∀ z ∈ chosen, oneAcquired owner chosen (owner z) = some 1 :=
    fun z hz => if_pos ⟨z, hz, rfl⟩
  refine ⟨?_, row' x, ⟨1, hone x hx, by simp [howner x]⟩,
    ⟨1, hone y hy, by simp [howner y, hnext]⟩⟩
  intro heq
  have hlists := howner x
  rw [heq, howner y] at hlists
  exact hdistinct x ((List.cons.inj hlists).1.symm.trans hnext.symm)

theorem exists_deadlock_of_circle [Finite ι]
    (hlength : ∀ i, (program i).length ≤ 2) (hnodup : ∀ i, (program i).Nodup)
    (h : ¬Acyclic program) : ∃ s, Reachable program s ∧ Deadlocked program s := by
  classical
  simp only [Acyclic, not_forall, not_not] at h
  obtain ⟨start, hstart⟩ := h
  have hnext : ∀ x : { row // OnCircle program row }, ∃ y : { row // OnCircle program row },
      ∃ i, program i = [x.val, y.val] := by
    intro x
    obtain ⟨row', hcircle, hbefore⟩ := x.property.next
    exact ⟨⟨row', hcircle⟩, (before_iff_of_length hlength).mp hbefore⟩
  choose next owner howner using hnext
  have hinjective : Function.Injective owner := by
    intro x y hxy
    have hlists := howner x
    rw [hxy, howner y] at hlists
    exact Subtype.ext (List.cons.inj hlists).1.symm
  have hfinite := Finite.of_injective owner hinjective
  have hfintype := Fintype.ofFinite { row // OnCircle program row }
  have hnonempty : Nonempty { row // OnCircle program row } := ⟨⟨start, hstart⟩⟩
  have hdistinct : ∀ x, x.val ≠ (next x).val := by
    intro x
    have hx := hnodup (owner x)
    rw [howner x] at hx
    simpa using hx
  refine ⟨oneAcquired owner Finset.univ,
    reachable_oneAcquired howner Subtype.val_injective Finset.univ, ?_⟩
  have hwaits : ∀ x, WaitsFor program (oneAcquired owner Finset.univ) (owner x)
      (owner (next x)) := by
    intro x
    exact waitsFor_oneAcquired howner hdistinct (Finset.mem_univ x)
      (Finset.mem_univ (next x)) rfl
  obtain ⟨x, hcircle⟩ := exists_circle (R := fun x y => next x = y)
    (fun x => ⟨next x, rfl⟩)
  have hlift : ∀ y z, next y = z → WaitsFor program
      (oneAcquired owner Finset.univ) (owner y) (owner z) :=
    fun y z hyz => hyz ▸ hwaits y
  exact ⟨owner x, Relation.TransGen.lift owner hlift x x hcircle⟩

end Circle

/-! ## The rows a transaction acquires -/

section Acquired

variable [DecidableEq ρ]

/-- Asking again for a row which is held acquires nothing. -/
def acquire (held : List ρ) (row : ρ) : List ρ :=
  if row ∈ held then held else held ++ [row]

/-- The rows of a trace in the order of their first request. -/
def acquired (trace : List ρ) : List ρ := trace.foldl acquire []

theorem acquire_nodup {held : List ρ} (h : held.Nodup) (row : ρ) :
    (acquire held row).Nodup := by
  unfold acquire
  split
  · exact h
  next hnew =>
    apply List.nodup_append'.mpr
    exact ⟨h, List.nodup_singleton row, by simpa using hnew⟩

theorem foldl_acquire_nodup {held : List ρ} (h : held.Nodup) (trace : List ρ) :
    (trace.foldl acquire held).Nodup := by
  induction trace generalizing held with
  | nil => exact h
  | cons row rest ih => exact ih (acquire_nodup h row)

theorem acquired_nodup (trace : List ρ) : (acquired trace).Nodup :=
  foldl_acquire_nodup List.nodup_nil trace

theorem prefix_foldl_acquire (held trace : List ρ) :
    held <+: trace.foldl acquire held := by
  induction trace generalizing held with
  | nil => exact List.prefix_refl held
  | cons row rest ih =>
      apply List.IsPrefix.trans ?_ (ih (acquire held row))
      unfold acquire
      split
      · exact List.prefix_refl held
      · exact List.prefix_append held [row]

/-- What is acquired until a transaction is cut short comes first in what it
would have acquired. -/
theorem acquired_prefix {before trace : List ρ} (h : before <+: trace) :
    acquired before <+: acquired trace := by
  obtain ⟨rest, rfl⟩ := h
  unfold acquired
  rw [List.foldl_append]
  exact prefix_foldl_acquire _ rest

theorem mem_foldl_acquire {held trace : List ρ} {row : ρ} :
    row ∈ trace.foldl acquire held ↔ row ∈ held ∨ row ∈ trace := by
  induction trace generalizing held with
  | nil => simp
  | cons first rest ih =>
      have hacquire : row ∈ acquire held first ↔ row ∈ held ∨ row = first := by
        unfold acquire
        split
        next hheld =>
          constructor
          · exact Or.inl
          · rintro (h | rfl)
            · exact h
            · exact hheld
        next => simp
      rw [List.foldl_cons, ih, hacquire, List.mem_cons, or_assoc]

theorem foldl_acquire_eq_self {held trace : List ρ} (h : trace ⊆ held) :
    trace.foldl acquire held = held := by
  induction trace with
  | nil => rfl
  | cons row rest ih =>
      obtain ⟨hrow, hrest⟩ := List.cons_subset.mp h
      rw [List.foldl_cons, acquire, if_pos hrow, ih hrest]

end Acquired

/-! ### Reading the order off a program -/

section Visits

open Tx

variable {δ κ ε α β : Type} [DecidableEq ρ] (row? : κ → Option ρ)

/-- The rows of interest among the locks taken, in the order of acquisition. -/
def held (locked : List κ) : List ρ := acquired (locked.filterMap row?)

/-- Started from `db`, the transaction visits the rows of `order` and returns
with `post`, or raises after visiting a beginning of them. -/
def Visits (tx : Tx δ κ ε α) (db : δ) (order : List ρ) (post : α → δ → Prop) :
    Prop :=
  ∀ locked, match tx.run ⟨db, locked⟩ with
    | .ok a s => held row? s.locked = order.foldl acquire (held row? locked) ∧
        post a s.db
    | .error _ s => ∃ before, before <+: order ∧
        held row? s.locked = before.foldl acquire (held row? locked)

variable {row?} {db : δ} {order order' : List ρ} {post : α → δ → Prop}

theorem held_append_some {row : κ} {r : ρ} (h : row? row = some r)
    (locked : List κ) :
    held row? (locked ++ [row]) = acquire (held row? locked) r := by
  simp [held, acquired, h]

theorem held_append_none {row : κ} (h : row? row = none) (locked : List κ) :
    held row? (locked ++ [row]) = held row? locked := by
  simp [held, h]

theorem Visits.pure {a : α} (h : post a db) :
    Visits row? (pure a : Tx δ κ ε α) db [] post :=
  fun _ => ⟨rfl, h⟩

theorem Visits.throw (e : ε) :
    Visits row? (throw e : Tx δ κ ε α) db order post :=
  fun _ => ⟨[], List.nil_prefix, rfl⟩

theorem Visits.modifyDb {f : δ → δ} {post : Unit → δ → Prop} (h : post () (f db)) :
    Visits row? (modifyDb f : Tx δ κ ε Unit) db [] post :=
  fun _ => ⟨rfl, h⟩

theorem Visits.bind {x : Tx δ κ ε α} {f : α → Tx δ κ ε β} {mid : α → δ → Prop}
    {post : β → δ → Prop} (hx : Visits row? x db order mid)
    (hf : ∀ a db', mid a db' → Visits row? (f a) db' order' post) :
    Visits row? (x >>= f) db (order ++ order') post := by
  intro locked
  have hx := hx locked
  rw [EStateM.run_bind]
  cases hrun : x.run ⟨db, locked⟩ with
  | ok a s =>
      rw [hrun] at hx
      have hf := hf a s.db hx.2 s.locked
      simp only
      cases hrun' : (f a).run s with
      | ok b s' =>
          rw [hrun'] at hf
          rw [List.foldl_append, ← hx.1]
          exact hf
      | error e s' =>
          rw [hrun'] at hf
          obtain ⟨before, hbefore, hheld⟩ := hf
          refine ⟨order ++ before, List.prefix_append_right_inj order |>.mpr hbefore, ?_⟩
          rw [List.foldl_append, ← hx.1]
          exact hheld
  | error e s =>
      rw [hrun] at hx
      obtain ⟨before, hbefore, hheld⟩ := hx
      exact ⟨before, hbefore.trans (List.prefix_append order order'), hheld⟩

/-- A transaction which asks for no row besides those of `rows` acquires
nothing where they are held. -/
def Quiet (row? : κ → Option ρ) (rows : List ρ) (tx : Tx δ κ ε α) (db : δ)
    (post : α → δ → Prop) : Prop :=
  ∀ locked, rows ⊆ held row? locked → match tx.run ⟨db, locked⟩ with
    | .ok a s => held row? s.locked = held row? locked ∧ post a s.db
    | .error _ s => held row? s.locked = held row? locked

theorem Visits.quiet {tx : Tx δ κ ε α} {rows : List ρ}
    (h : Visits row? tx db order post) (hrows : order ⊆ rows) :
    Quiet row? rows tx db post := by
  intro locked hheld
  have h := h locked
  cases hrun : tx.run ⟨db, locked⟩ with
  | ok a s =>
      rw [hrun, foldl_acquire_eq_self (List.Subset.trans hrows hheld)] at h
      exact h
  | error e s =>
      rw [hrun] at h
      obtain ⟨before, hbefore, hlocked⟩ := h
      rwa [foldl_acquire_eq_self
        (List.Subset.trans hbefore.subset (List.Subset.trans hrows hheld))] at hlocked

theorem Quiet.bind {x : Tx δ κ ε α} {f : α → Tx δ κ ε β} {mid : α → δ → Prop}
    {post : β → δ → Prop} {rows : List ρ} (hx : Quiet row? rows x db mid)
    (hf : ∀ a db', mid a db' → Quiet row? rows (f a) db' post) :
    Quiet row? rows (x >>= f) db post := by
  intro locked hheld
  have hx := hx locked hheld
  rw [EStateM.run_bind]
  cases hrun : x.run ⟨db, locked⟩ with
  | ok a s =>
      rw [hrun] at hx
      have hf := hf a s.db hx.2 s.locked (hx.1.symm ▸ hheld)
      rw [hx.1] at hf
      exact hf
  | error e s =>
      rw [hrun] at hx
      exact hx

/-- A quiet continuation adds nothing to what has been visited. -/
theorem Visits.bind_quiet {x : Tx δ κ ε α} {f : α → Tx δ κ ε β}
    {mid : α → δ → Prop} {post : β → δ → Prop}
    (hx : Visits row? x db order mid)
    (hf : ∀ a db', mid a db' → Quiet row? order (f a) db' post) :
    Visits row? (x >>= f) db order post := by
  intro locked
  have hx := hx locked
  rw [EStateM.run_bind]
  cases hrun : x.run ⟨db, locked⟩ with
  | error e s =>
      rw [hrun] at hx
      exact hx
  | ok a s =>
      rw [hrun] at hx
      have hheld : order ⊆ held row? s.locked := by
        intro row hrow
        rw [hx.1]
        exact mem_foldl_acquire.mpr (Or.inr hrow)
      have hf := hf a s.db hx.2 s.locked hheld
      simp only
      cases hrun' : (f a).run s with
      | ok b s' =>
          rw [hrun', hx.1] at hf
          exact hf
      | error e s' =>
          rw [hrun', hx.1] at hf
          exact ⟨order, List.prefix_refl order, hf⟩

theorem Visits.mono {tx : Tx δ κ ε α} {post' : α → δ → Prop}
    (h : Visits row? tx db order post) (hpost : ∀ a db', post a db' → post' a db') :
    Visits row? tx db order post' := by
  intro locked
  have h := h locked
  cases hrun : tx.run ⟨db, locked⟩ with
  | ok a s =>
      rw [hrun] at h
      exact ⟨h.1, hpost a s.db h.2⟩
  | error e s =>
      rw [hrun] at h
      exact h

section Prefix

variable {post : β → δ → Prop}

theorem Visits.query_bind {f : δ → α} {k : α → Tx δ κ ε β}
    (h : Visits row? (k (f db)) db order post) :
    Visits row? (Tx.query f >>= k) db order post :=
  fun locked => h locked

theorem Visits.modifyDb_bind {f : δ → δ} {k : Unit → Tx δ κ ε β}
    (h : Visits row? (k ()) (f db) order post) :
    Visits row? (Tx.modifyDb f >>= k) db order post :=
  fun locked => h locked

theorem Visits.orRaise_bind {x : Except ε α} {k : α → Tx δ κ ε β}
    (h : ∀ a, x = .ok a → Visits row? (k a) db order post) :
    Visits row? (Tx.orRaise x >>= k) db order post := by
  cases x with
  | ok a => exact fun locked => h a rfl locked
  | error e => exact Visits.throw e

theorem Visits.lockRow_bind {row : κ} {r : ρ} {k : Unit → Tx δ κ ε β}
    (hrow : row? row = some r) (h : Visits row? (k ()) db order post) :
    Visits row? (Tx.lockRow row >>= k) db (r :: order) post := by
  intro locked
  have h := h (locked ++ [row])
  rw [held_append_some hrow] at h
  have hrun : (Tx.lockRow row >>= k).run ⟨db, locked⟩ =
      (k ()).run ⟨db, locked ++ [row]⟩ := rfl
  rw [hrun]
  cases hk : (k ()).run ⟨db, locked ++ [row]⟩ with
  | ok b s =>
      rw [hk] at h
      exact h
  | error e s =>
      rw [hk] at h
      obtain ⟨before, hbefore, hheld⟩ := h
      exact ⟨r :: before, List.cons_prefix_cons.mpr ⟨rfl, hbefore⟩, hheld⟩

theorem Visits.lockOther_bind {row : κ} {k : Unit → Tx δ κ ε β}
    (hrow : row? row = none) (h : Visits row? (k ()) db order post) :
    Visits row? (Tx.lockRow row >>= k) db order post := by
  intro locked
  have h := h (locked ++ [row])
  rw [held_append_none hrow] at h
  exact h

end Prefix

/-- What a whole transaction acquires. -/
theorem Visits.held_lockTrace {tx : Tx δ κ ε α} (h : Visits row? tx db order post) :
    held row? (lockTrace tx db) <+: acquired order ∧
      (∀ a db', commit tx db = (.ok a, db') →
        held row? (lockTrace tx db) = acquired order) := by
  have h := h []
  unfold lockTrace commit
  cases hrun : tx.run ⟨db, []⟩ with
  | ok a s =>
      rw [hrun] at h
      have hheld : held row? s.locked = acquired order := h.1
      exact ⟨by simp only [session, hheld, List.prefix_refl], fun _ _ _ => hheld⟩
  | error e s =>
      rw [hrun] at h
      obtain ⟨before, hbefore, hheld⟩ := h
      refine ⟨?_, ?_⟩
      · have hacquired : held row? s.locked = acquired before := hheld
        simp only [session, hacquired]
        exact acquired_prefix hbefore
      · intro a db' hcommit
        cases hcommit

end Visits

end CryptoWallet.LockOrder
