import CryptoWallet.WalletLedger
import Mathlib.Data.List.Dedup

/-!
# The reconciliation report

The report joins every balance row with the sum of the ledger entries of its account.
An account which has entries and no row is not part of it.
-/

namespace CryptoWallet.Wallet

/-- The columns of a ledger entry which the report reads. -/
structure EntryAmount where
  account : Account
  amount : Int
  amountNonZero : amount ≠ 0

def LedgerEntry.entryAmount (e : LedgerEntry) : EntryAmount :=
  ⟨e.account, e.amount, e.amountNonZero⟩

def Db.movements (db : Db) : List EntryAmount := db.ledger.rows.map LedgerEntry.entryAmount

def movedSum (k : Account) (movements : List EntryAmount) : Int :=
  ((movements.filter (·.account = k)).map EntryAmount.amount).sum

/-- The subquery `sums`: one row for each account with entries. -/
def sums (movements : List EntryAmount) : List (Account × Int) :=
  (movements.map EntryAmount.account).dedup.map fun k => (k, movedSum k movements)

structure ReportRow where
  userId : Int
  asset : String
  snapshotPosted : String
  ledgerSum : String
  reserved : String
  consistent : Bool
  deriving DecidableEq

/-- A balance row, joined with the sum of its account if there is one. -/
def reportRow (totals : List (Account × Int)) (b : Balance) : ReportRow :=
  let ledgerSum := (totals.lookup b.account).getD 0
  { userId := b.userId
    asset := b.asset
    snapshotPosted := toString b.posted
    ledgerSum := toString ledgerSum
    reserved := toString b.reserved
    consistent := b.posted = ledgerSum }

/-- `ORDER BY user_id, asset`. -/
def Balance.before (b b' : Balance) : Bool :=
  b.userId < b'.userId || (b.userId = b'.userId && b.asset ≤ b'.asset)

abbrev Balances := Table Account Balance Balance.account

def reconcile (balances : Balances) (movements : List EntryAmount) : List ReportRow :=
  (balances.rows.mergeSort Balance.before).map (reportRow (sums movements))

structure ReconciliationResponse where
  checked : Nat
  inconsistent : Nat
  rows : List ReportRow
  deriving DecidableEq

/-- `GET /admin/reconciliation`. -/
def reconciliation (balances : Balances) (movements : List EntryAmount) :
    ReconciliationResponse :=
  let rows := reconcile balances movements
  { checked := rows.length
    inconsistent := (rows.filter (!·.consistent)).length
    rows }

/-! ## What the report finds -/

section Report

variable {balances : Balances} {movements : List EntryAmount} {k : Account}

theorem movedSum_eq_zero (h : ∀ m ∈ movements, m.account ≠ k) : movedSum k movements = 0 := by
  have hnone : movements.filter (·.account = k) = [] := by
    apply List.filter_eq_nil_iff.mpr
    simpa using h
  rw [movedSum, hnone]
  rfl

theorem lookup_map_self (f : Account → Int) (accounts : List Account) :
    (accounts.map fun k => (k, f k)).lookup k = if k ∈ accounts then some (f k) else none := by
  induction accounts with
  | nil => rfl
  | cons first rest ih =>
      rw [List.map_cons, List.lookup_cons]
      by_cases hfirst : k = first
      · subst hfirst
        simp
      · have hne : (k == first) = false := by simpa using hfirst
        rw [hne]
        simp only [ih, List.mem_cons, hfirst, false_or]

/-- Joining finds the sum of the account, 0 when it has no entries. -/
theorem sums_lookup (movements : List EntryAmount) (k : Account) :
    ((sums movements).lookup k).getD 0 = movedSum k movements := by
  unfold sums
  rw [lookup_map_self]
  split
  · rfl
  · next habsent =>
      rw [movedSum_eq_zero]
      · rfl
      · intro m hm hk
        exact habsent (List.mem_dedup.mpr (List.mem_map.mpr ⟨m, hm, hk⟩))

theorem inconsistent_eq_zero_iff :
    (reconciliation balances movements).inconsistent = 0 ↔
      ∀ b ∈ balances.rows, b.posted = movedSum b.account movements := by
  simp only [reconciliation, reconcile, List.length_eq_zero_iff, List.filter_eq_nil_iff,
    List.mem_map, List.mem_mergeSort, forall_exists_index, and_imp,
    forall_apply_eq_imp_iff₂, reportRow, sums_lookup, Bool.not_eq_true', decide_eq_false_iff_not,
    not_not]

/-- The posted snapshot, 0 when there is no row. -/
def snapshotOf (balances : Balances) (k : Account) : Int :=
  match balances.find? k with
  | some b => b.posted
  | none => 0

/-- Every account with a balance row or an entry agrees. -/
def Reconciled (balances : Balances) (movements : List EntryAmount) : Prop :=
  ∀ k, ((balances.find? k).isSome = true ∨ ∃ m ∈ movements, m.account = k) →
    snapshotOf balances k = movedSum k movements

theorem reconciled_iff :
    Reconciled balances movements ↔
      (∀ b ∈ balances.rows, b.posted = movedSum b.account movements) ∧
        ∀ m ∈ movements, balances.find? m.account = none →
          movedSum m.account movements = 0 := by
  constructor
  · intro h
    constructor
    · intro b hb
      have hfind := balances.find?_of_mem hb
      have hagrees := h b.account (Or.inl (by rw [hfind]; rfl))
      simp only [snapshotOf, hfind] at hagrees
      exact hagrees
    · intro m hm hnone
      have hagrees := h m.account (Or.inr ⟨m, hm, rfl⟩)
      simp only [snapshotOf, hnone] at hagrees
      exact hagrees.symm
  · rintro ⟨hrows, hmissing⟩ k hk
    unfold snapshotOf
    cases hfind : balances.find? k with
    | some b =>
        have hkey := Table.key_of_find? hfind
        rw [← hkey]
        exact hrows b (Table.mem_of_find? hfind)
    | none =>
        rw [hfind] at hk
        rcases hk with hsome | ⟨m, hm, rfl⟩
        · cases hsome
        · exact (hmissing m hm hfind).symm

end Report

/-- The report is right if and only if it reports a row which disagrees, or no account
without a row has entries which do not cancel. -/
theorem report_right_iff (balances : Balances) (movements : List EntryAmount) :
    ((reconciliation balances movements).inconsistent = 0 ↔ Reconciled balances movements) ↔
      (∃ b ∈ balances.rows, b.posted ≠ movedSum b.account movements) ∨
        ∀ m ∈ movements, balances.find? m.account = none →
          movedSum m.account movements = 0 := by
  rw [inconsistent_eq_zero_iff, reconciled_iff]
  by_cases hrows : ∀ b ∈ balances.rows, b.posted = movedSum b.account movements
  · have hagree : ¬∃ b ∈ balances.rows, b.posted ≠ movedSum b.account movements := by
      rintro ⟨b, hb, hne⟩
      exact hne (hrows b hb)
    constructor
    · intro h
      exact Or.inr (h.mp hrows).2
    · intro h
      exact ⟨fun hrows => ⟨hrows, h.resolve_left hagree⟩, fun h => h.1⟩
  · have hdisagree : ∃ b ∈ balances.rows, b.posted ≠ movedSum b.account movements := by
      simpa using hrows
    constructor
    · exact fun _ => Or.inl hdisagree
    · exact fun _ => ⟨fun h => absurd h hrows, fun h => absurd h.1 hrows⟩

/-- In the tables of the service. -/
theorem Db.movedSum_movements (db : Db) (k : Account) :
    movedSum k db.movements = db.ledgerSum k := by
  unfold movedSum Db.movements Db.ledgerSum Table.total
  induction db.ledger.rows with
  | nil => rfl
  | cons e rest ih =>
      by_cases hk : e.account = k
      · simp [hk, ← ih, LedgerEntry.entryAmount]
      · simp [hk, ← ih, LedgerEntry.entryAmount]

/-- An entry of 5 units to an account without a balance row. -/
theorem missing_row_is_not_reported :
    (reconciliation .empty [⟨(1, "USDT"), 5, by decide⟩]).inconsistent = 0 ∧
      ¬Reconciled .empty [⟨(1, "USDT"), 5, by decide⟩] := by
  refine ⟨inconsistent_eq_zero_iff.mpr (by simp), ?_⟩
  intro h
  have hagrees := h (1, "USDT") (Or.inr ⟨_, List.mem_singleton.mpr rfl, rfl⟩)
  revert hagrees
  decide

end CryptoWallet.Wallet
