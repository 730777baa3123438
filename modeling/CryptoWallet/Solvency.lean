import CryptoWallet.DepositSettlement
import CryptoWallet.TableSums

/-!
# What the users have is what was paid in

Transfers move money between the balances and make none.  So the balances add up to the
deposits in the ledger, and once the wallet has handled the deposit events, to the
confirmed deposits of the blockchain service.
-/

namespace CryptoWallet

open Tx
open Blockchain (Deposit postedUnits standing)
open Wallet (Account Balance LedgerEntry)

variable {σ : Type}

/-! ## Balances and ledger -/

namespace Wallet

/-- The entries of all deposits together. -/
def Db.depositTotal (db : Db) : Int := (db.depositEntries.map LedgerEntry.amount).sum

section Totals

variable {db : Db}

theorem Db.postedOf_eq_weightAt (db : Db) (k : Account) :
    db.postedOf k = db.balances.weightAt Balance.posted k := by
  unfold Db.postedOf
  cases hfind : db.balances.find? k with
  | none => exact (Table.weightAt_of_none hfind Balance.posted).symm
  | some b => exact (Table.weightAt_of_find? hfind Balance.posted).symm

theorem Db.ledgerSum_eq_filter (db : Db) (k : Account) :
    db.ledgerSum k =
      ((db.ledger.rows.filter fun e => decide (e.account = k)).map LedgerEntry.amount).sum := by
  unfold Db.ledgerSum Table.total
  induction db.ledger.rows with
  | nil => rfl
  | cons e rest ih =>
      rw [List.map_cons, List.sum_cons, ih, List.filter_cons]
      by_cases hk : e.account = k <;> simp [hk]

theorem Sound.total_posted (h : Sound db) :
    db.balances.total Balance.posted = db.ledger.total LedgerEntry.amount := by
  have hkeys : ∀ b ∈ db.balances.rows,
      b.account ∈ (db.balances.rows.map Balance.account).toFinset := by
    intro b hb
    exact List.mem_toFinset.mpr (List.mem_map_of_mem hb)
  have hsorted : Sorted (fun k e => decide (LedgerEntry.account e = k))
      (db.balances.rows.map Balance.account).toFinset db.ledger.rows := by
    intro e he
    obtain ⟨b, hb⟩ := h.rows e he
    refine ⟨e.account, ?_, fun k => by rw [decide_eq_decide]; exact eq_comm⟩
    rw [← Table.key_of_find? hb]
    exact hkeys b (Table.mem_of_find? hb)
  rw [← Table.sum_weightAt hkeys, Table.total, ← sum_classes hsorted]
  apply Finset.sum_congr rfl
  intro k _
  rw [← Db.postedOf_eq_weightAt, h.posted, Db.ledgerSum_eq_filter]

theorem Sound.ledger_total (h : Sound db) :
    db.ledger.total LedgerEntry.amount = db.depositTotal := by
  have hsplit : db.ledger.total LedgerEntry.amount =
      db.transferSum (fun _ => true) + db.depositTotal := by
    unfold Table.total Db.transferSum Db.depositTotal Db.depositEntries Table.total Table.select
    induction db.ledger.rows with
    | nil => rfl
    | cons e rest ih =>
        rw [List.map_cons, List.sum_cons, ih, List.map_cons, List.sum_cons, List.filter_cons]
        cases htype : e.referenceType with
        | deposit =>
            simp
            ring
        | transfer =>
            simp
            ring
  rw [hsplit, h.balanced, zero_add]

/-- All balances together are what the deposits have brought in. -/
theorem Sound.total_eq (h : Sound db) :
    db.balances.total Balance.posted = db.depositTotal :=
  h.total_posted.trans h.ledger_total

end Totals

end Wallet

/-! ## Deposits and rows -/

theorem Sourced.refers {db : Wallet.Db} (h : Sourced db) :
    ∀ e ∈ db.depositEntries, ∃ id : DepositId, ∀ other : DepositId,
      other.refers e.referenceId = decide (other = id) := by
  intro e he
  obtain ⟨_, ⟨id, blockHash, hreference, _⟩, _⟩ := h e he
  refine ⟨id, ?_⟩
  intro other
  rw [hreference, Bool.eq_iff_iff, DepositId.refers_inBlock_iff, decide_eq_true_iff]

namespace SettlementWorld

variable {adapter : ChainAdapter σ} {settings : Blockchain.Settings} {config : Wallet.Config}
  {w : SettlementWorld}

/-- No event about any deposit is lost to an event id which is taken, and the wallet of
the address is registered when a deposit event is handled. -/
def AllAdmitted (adapter : ChainAdapter σ) (settings : Blockchain.Settings)
    (w : SettlementWorld) : SettlementAction σ → Prop
  | .service task => ∀ d ∈ w.service.deposits.rows,
      task.Fresh adapter settings d.identity w.service
  | .wallet _ => True
  | .deliver _ eventId => ∀ row ∈ w.service.outbox.find? eventId,
      Wallet.postsDeposit row.envelope.eventType = true →
        w.wallet.walletAt row.envelope.payload ≠ none

instance (w : SettlementWorld) (action : SettlementAction σ) :
    Decidable (AllAdmitted adapter settings w action) :=
  match action with
  | .service _ => inferInstanceAs (Decidable (∀ _ ∈ _, _))
  | .wallet _ => .isTrue trivial
  | .deliver _ _ => inferInstanceAs (Decidable (∀ _ ∈ _, _ → _))

theorem AllAdmitted.admitted {action : SettlementAction σ}
    (h : AllAdmitted adapter settings w action) (id : DepositId) :
    Admitted adapter settings id w action := by
  cases action with
  | wallet s => trivial
  | deliver scope eventId =>
      intro row hrow hunits
      apply h row hrow
      rw [← Bool.not_eq_false]
      exact fun hquiet => hunits (Blockchain.postedUnits_of_beside id hquiet)
  | service task =>
      cases hfind : w.service.deposits.find? id with
      | some d =>
          have hkey := Table.key_of_find? hfind
          subst hkey
          exact h d (Table.mem_of_find? hfind)
      | none =>
          cases task with
          | deposits task =>
              cases task with
              | watch scope headCall calls =>
                  intro _ head _ d hd
                  rw [hfind] at hd
                  cases hd
              | issueAddress ownerRef network generated => trivial
              | scan scope newId calls => trivial
          | request scope envelope => trivial
          | broadcast scope limit chain => trivial
          | watchOutgoing scope headCall calls => trivial
          | relay relaySettings now publishError => trivial

theorem Inv.settled {id : DepositId} (h : Inv id w) (hhandled : w.Handled) :
    w.wallet.depositSum id = standing w.service id := by
  rw [h.books, ← h.told.balance]
  apply congrArg List.sum
  apply List.map_congr_left
  intro envelope hmem
  unfold received
  split
  next => rfl
  next hunhandled =>
    cases htype : Wallet.postsDeposit envelope.eventType with
    | false => exact (Blockchain.postedUnits_of_beside id htype).symm
    | true => exact (hunhandled (hhandled envelope hmem htype)).elim

/-- The deposits of the ledger and those of the service come to the same. -/
theorem depositTotal_eq (hsourced : Sourced w.wallet)
    (hbooks : ∀ id, w.wallet.depositSum id = standing w.service id) :
    w.wallet.depositTotal = w.service.deposits.total Deposit.standing := by
  obtain ⟨ids, hids, hsorted⟩ :=
    exists_sorted hsourced.refers (w.service.deposits.rows.map Deposit.identity).toFinset
  have hkeys : ∀ d ∈ w.service.deposits.rows, d.identity ∈ ids := by
    intro d hd
    exact hids (List.mem_toFinset.mpr (List.mem_map_of_mem hd))
  rw [Wallet.Db.depositTotal, ← sum_classes hsorted, ← Table.sum_weightAt hkeys]
  exact Finset.sum_congr rfl fun id _ => hbooks id

/-- In every run in which no deposit event is lost, once the wallet has handled them all,
the balances of all users together are the confirmed deposits. -/
theorem admitted_runs_are_solvent {actions : List (SettlementAction σ)}
    (hrun : AdmittedRun (step adapter settings config) (AllAdmitted adapter settings) .start
      actions)
    (hhandled : (runSteps (step adapter settings config) .start actions).Handled) :
    (runSteps (step adapter settings config) .start actions).wallet.balances.total
        Balance.posted =
      (runSteps (step adapter settings config) .start actions).service.deposits.total
        Deposit.standing := by
  have hinv : ∀ id, Inv id (runSteps (step adapter settings config) .start actions) := by
    intro id
    have hadmitted : AdmittedRun (step adapter settings config)
        (Admitted adapter settings id) .start actions :=
      hrun.mono fun _ _ hall => hall.admitted id
    exact AdmittedRun.invariant (I := Inv id)
      (fun _ action h hadmitted => h.step action hadmitted) (Inv.start id) hadmitted
  have hany := hinv paymentId
  rw [hany.sound.total_eq]
  exact depositTotal_eq hany.sourced fun id => (hinv id).settled hhandled

/-- A payment of 500 units. -/
theorem payment_is_covered :
    (runSteps (step endingAdapter .standard Wallet.spentConfig) .start
        confirmedOnce).wallet.balances.total Balance.posted = 500 ∧
      (runSteps (step endingAdapter .standard Wallet.spentConfig) .start
          confirmedOnce).wallet.balances.total Balance.posted =
        (runSteps (step endingAdapter .standard Wallet.spentConfig) .start
          confirmedOnce).service.deposits.total Deposit.standing := by
  have hrun : AdmittedRun (step endingAdapter .standard Wallet.spentConfig)
      (AllAdmitted endingAdapter .standard) .start confirmedOnce ∧
      (runSteps (step endingAdapter .standard Wallet.spentConfig) .start
        confirmedOnce).Handled ∧
      (runSteps (step endingAdapter .standard Wallet.spentConfig) .start
        confirmedOnce).wallet.balances.total Balance.posted = 500 := by
    decide +kernel
  exact ⟨hrun.2.2, admitted_runs_are_solvent hrun.1 hrun.2.1⟩

end SettlementWorld

end CryptoWallet
