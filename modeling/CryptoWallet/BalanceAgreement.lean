import CryptoWallet.Solvency
import CryptoWallet.TransferAgreement

/-!
# The balances follow the records of the service

A balance is the deposits to the account and what the confirmed transfers moved; a hold
is for the transfers which are still open.  When all reports have been delivered, the
records of the service say which these are.
-/

namespace CryptoWallet

open Tx
open Blockchain (TxStatus)
open Wallet (Account LedgerEntry Movement Transfer TransferStatus movedAt settlementMovements)

variable {σ : Type}

namespace Wallet

/-! ## What a balance is made of -/

theorem movedAt_append (k : Account) (movements movements' : List Movement) :
    movedAt k (movements ++ movements') = movedAt k movements + movedAt k movements' := by
  simp [movedAt]

/-- The entries of a transfer move what its status says. -/
theorem History.movedAt {t : Transfer} {movements : List Movement} (h : History t movements)
    (k : Account) : movedAt k movements = t.movedBy k := by
  unfold History at h
  unfold Transfer.movedBy
  cases hstatus : t.status with
  | created | processing | broadcasted =>
      rw [hstatus] at h
      rw [h]
      rfl
  | confirmed =>
      rw [hstatus] at h
      exact movedAt_perm k h
  | failed =>
      rw [hstatus] at h
      rcases h with rfl | hperm
      · rfl
      · rw [movedAt_perm k hperm, movedAt_append, movedAt_reversal, add_neg_cancel]
        rfl

section Posted

variable {db : Db}

end Posted

end Wallet

/-! ## When all reports have been delivered -/

namespace Platform

/-- The status of the record of a transfer. -/
def recordStatus (w : Platform) (t : Transfer) : Option TxStatus :=
  (w.service.db.outgoing.find? t.id).map (·.status)

variable {adapter : ChainAdapter σ} {settings : Blockchain.Settings}
  {config : Wallet.Config} {w : Platform} {t : Transfer}

theorem InAgreement.confirmed_iff (h : w.InAgreement) (ht : t ∈ w.wallet.transfers.rows) :
    t.status = .confirmed ↔ w.recordStatus t = some .confirmed := by
  unfold recordStatus
  cases hrecord : w.service.db.outgoing.find? t.id with
  | none =>
      rcases h.unrecorded t ht hrecord with hstatus | hstatus
      · simp [hstatus]
      · simp [hstatus]
  | some record =>
      rw [(h.recorded t ht record hrecord).confirmed]
      simp

end Platform

end CryptoWallet
