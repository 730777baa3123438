import CryptoWallet.DepositCases
import CryptoWallet.DepositConfirmation
import CryptoWallet.WalletDirectory
import CryptoWallet.WalletRedelivery

/-!
# What the wallet makes of a deposit event

The payload of a deposit event carries the columns of the row, and the wallet
posts one entry for it: the amount of the row to the owner of the wallet at
exactly the address of the row, under the identity of the log and a block hash.
-/

namespace CryptoWallet

open Tx
open Blockchain (Deposit depositPayload reorgedPayload)
open Wallet (Directory EntryOf EntryType LedgerEntry Moved Posting WalletRow)

/-! ## The payload -/

structure Carries (payload : Payload) (d : Deposit) : Prop where
  toAddress : payload.item "to_address" = .ok (.str d.toAddress.val)
  amountUnits : payload.item "amount_units" = .ok (.str (toString (d.amount : Int)))
  asset : payload.item "asset" = .ok (.str d.asset.val)

theorem depositPayload_carries {d : Deposit} {confirmations : Nat} {payload : Payload}
    (h : depositPayload d confirmations = .ok payload) :
    Carries payload d ∧
      Wallet.referenceId payload = .ok (DepositId.inBlock d.identity d.blockHash) := by
  unfold depositPayload at h
  split at h
  next => cases h
  next asset _ =>
    cases h
    refine ⟨⟨?_, ?_, ?_⟩, ?_⟩
    · simp [Payload.item, Payload.get?, List.lookup_cons]
    · simp [Payload.item, Payload.get?, List.lookup_cons]
    · simp [Payload.item, Payload.get?, List.lookup_cons]
    · simp only [Wallet.referenceId, Wallet.depositReference, Payload.item, Payload.get?,
        Payload.getD]
      rfl

theorem reorgedPayload_carries {d : Deposit} {confirmations : Nat} {payload : Payload}
    (h : depositPayload d confirmations = .ok payload) (wasConfirmed : Bool)
    (orphaned : ChainHash) :
    Carries (reorgedPayload payload wasConfirmed orphaned) d ∧
      (reorgedPayload payload wasConfirmed orphaned).getD "was_confirmed" .null =
        .bool wasConfirmed ∧
      Wallet.reversalReferenceId (reorgedPayload payload wasConfirmed orphaned) =
        .ok (DepositId.inBlock d.identity orphaned) := by
  unfold depositPayload at h
  split at h
  next => cases h
  next asset _ =>
    cases h
    refine ⟨⟨?_, ?_, ?_⟩, ?_, ?_⟩
    · simp [reorgedPayload, Payload.item, Payload.get?, List.lookup_cons]
    · simp [reorgedPayload, Payload.item, Payload.get?, List.lookup_cons]
    · simp [reorgedPayload, Payload.item, Payload.get?, List.lookup_cons]
    · simp [reorgedPayload, Payload.getD, Payload.get?, List.lookup_cons]
    · simp only [Wallet.reversalReferenceId, Wallet.depositReference, reorgedPayload,
        Payload.item, Payload.get?, Payload.getD]
      rfl

/-! ## The posting -/

/-- The reference of a deposit fits its column. -/
theorem reference_length (d : Deposit) (blockHash : ChainHash) :
    (DepositId.inBlock d.identity blockHash).length ≤ 200 := by
  have hnetwork := d.network.property.1
  have htxHash := d.txHash.property.2.1
  have hblockHash := blockHash.property.2.1
  have hindex : (toString d.logIndex).length ≤ 10 := by
    have htext : (toString d.logIndex).toList = Nat.toDigits 10 d.logIndex :=
      Nat.toList_repr
    rw [← String.length_toList, htext]
    exact (Nat.length_toDigits_le_iff (by omega) (by omega)).mpr
      (lt_trans d.logIndexFits (by omega))
  simp only [DepositId.inBlock, DepositId.text, Deposit.identity, String.length_append]
  have hcolon : (":" : String).length = 1 := rfl
  omega

/-- An entry for the deposit in the books of one wallet. -/
structure EntryFor (d : Deposit) (w : WalletRow) (entryType : EntryType) (amount : Int)
    (blockHash : ChainHash) (e : LedgerEntry) : Prop where
  userId : e.userId = w.userId
  asset : e.asset = d.asset.val
  amount : e.amount = amount
  entryType : e.entryType = entryType
  referenceType : e.referenceType = .deposit
  referenceId : e.referenceId = DepositId.inBlock d.identity blockHash

/-- The wallet at the address of the deposit gets one entry, if there is such a wallet
and the ledger does not have the entry. -/
def PostsFor (d : Deposit) (entryType : EntryType) (amount : Int) (blockHash : ChainHash)
    (db db' : Wallet.Db) : Prop :=
  (db.wallets.rows.find? (·.address = d.toAddress.val) = none ∧ db' = db) ∨
    ∃ w e, db.wallets.rows.find? (·.address = d.toAddress.val) = some w ∧
      EntryFor d w entryType amount blockHash e ∧
      Moved db db' (Wallet.unabsorbed db.entryKeys [e]) 0

section Posting

variable {d : Deposit} {payload : Payload} {scope : Scope} {db : Wallet.Db}

theorem walletAt_carried (h : Carries payload d) :
    db.walletAt payload = db.wallets.rows.find? (·.address = d.toAddress.val) := by
  have hbound : bindText (.str d.toAddress.val) = .ok (some d.toAddress.val) := by
    simp [bindText, bindString, d.toAddress.property.2, Except.map]
  simp only [Wallet.Db.walletAt, h.toAddress, hbound]

theorem amount_carried (h : Carries payload d) {value : Json} {amount : Int}
    (hvalue : payload.item "amount_units" = .ok value) (hamount : pyIntOf value = .ok amount) :
    amount = d.amount := by
  rw [h.amountUnits, Except.ok.injEq] at hvalue
  subst hvalue
  simp only [pyIntOf, Json.toInt?, pyInt_toString d.amountFits, Except.ok.injEq] at hamount
  exact hamount.symm

theorem entryFor_of_posting (h : Carries payload d) {w : WalletRow} {entryType : EntryType}
    {amount : Int} {blockHash : ChainHash} {asset : Json} {text : String} {e : LedgerEntry}
    (hasset : payload.item "asset" = .ok asset) (htext : Wallet.assetText asset = .ok text)
    (hentry : EntryOf scope text ⟨w.userId, amount, entryType, .deposit,
      DepositId.inBlock d.identity blockHash⟩ e) :
    EntryFor d w entryType amount blockHash e := by
  rw [h.asset, Except.ok.injEq] at hasset
  subst hasset
  have htext' : text = d.asset.val := by
    simp [Wallet.assetText, bindText, bindString, d.asset.property.2, Except.map, bind,
      Except.bind] at htext
    exact htext.symm
  obtain ⟨stored, hstored, hreference⟩ := hentry.referenceId
  exact ⟨hentry.userId, hentry.asset.trans htext', hentry.amount, hentry.entryType,
    hentry.referenceType,
    hreference.trans (varchar_eq (reference_length d blockHash) hstored)⟩

theorem creditDeposit_posts (h : Carries payload d) {blockHash : ChainHash}
    (hreference : Wallet.referenceId payload = .ok (DepositId.inBlock d.identity blockHash)) :
    Ensures (Wallet.creditDeposit scope payload) db
      (fun _ db' => PostsFor d .deposit d.amount blockHash db db') fun _ => True := by
  unfold Wallet.creditDeposit
  apply Ensures.orRaise_bind ?_ (fun _ _ => trivial)
  intro address haddress
  apply Ensures.bind (Wallet.walletByAddress_spec haddress db)
  rintro _ _ ⟨rfl, rfl⟩
  rw [walletAt_carried h]
  cases hwallet : Wallet.Db.wallets _ |>.rows.find? (·.address = d.toAddress.val) with
  | none => exact Ensures.pure (Or.inl ⟨hwallet, rfl⟩)
  | some w =>
      apply Ensures.orRaise_bind ?_ (fun _ _ => trivial)
      intro value hvalue
      apply Ensures.orRaise_bind ?_ (fun _ _ => trivial)
      intro amount hamount
      apply Ensures.orRaise_bind ?_ (fun _ _ => trivial)
      intro asset hasset
      apply Ensures.orRaise_bind ?_ (fun _ _ => trivial)
      intro reference hreference'
      rw [hreference, Except.ok.injEq] at hreference'
      subst hreference'
      apply (Wallet.postDeposit_exact _ scope asset _).mono ?_ (fun _ _ => trivial)
      rintro _ db' ⟨text, e, htext, hentry, hmoved⟩
      have hfor := entryFor_of_posting h hasset htext hentry
      rw [amount_carried h hvalue hamount] at hfor
      exact Or.inr ⟨w, e, hwallet, hfor, hmoved⟩

theorem reverseDeposit_posts (h : Carries payload d) {wasConfirmed : Bool}
    {blockHash : ChainHash}
    (hconfirmed : payload.getD "was_confirmed" .null = .bool wasConfirmed)
    (hreference : Wallet.reversalReferenceId payload =
      .ok (DepositId.inBlock d.identity blockHash)) :
    Ensures (Wallet.reverseDeposit scope payload) db
      (fun _ db' => (wasConfirmed = false ∧ db' = db) ∨
        (wasConfirmed = true ∧ PostsFor d .reversal (-d.amount) blockHash db db'))
      fun _ => True := by
  unfold Wallet.reverseDeposit
  rw [hconfirmed]
  cases wasConfirmed with
  | false => exact Ensures.pure (Or.inl ⟨rfl, rfl⟩)
  | true =>
      apply Ensures.orRaise_bind ?_ (fun _ _ => trivial)
      intro address haddress
      apply Ensures.bind (Wallet.walletByAddress_spec haddress db)
      rintro _ _ ⟨rfl, rfl⟩
      rw [walletAt_carried h]
      cases hwallet : Wallet.Db.wallets _ |>.rows.find? (·.address = d.toAddress.val) with
      | none => exact Ensures.pure (Or.inr ⟨rfl, Or.inl ⟨hwallet, rfl⟩⟩)
      | some w =>
          apply Ensures.orRaise_bind ?_ (fun _ _ => trivial)
          intro value hvalue
          apply Ensures.orRaise_bind ?_ (fun _ _ => trivial)
          intro amount hamount
          apply Ensures.orRaise_bind ?_ (fun _ _ => trivial)
          intro reference hreference'
          rw [hreference, Except.ok.injEq] at hreference'
          subst hreference'
          apply Ensures.orRaise_bind ?_ (fun _ _ => trivial)
          intro asset hasset
          apply (Wallet.postDeposit_exact _ scope asset _).mono ?_ (fun _ _ => trivial)
          rintro _ db' ⟨text, e, htext, hentry, hmoved⟩
          have hfor := entryFor_of_posting h hasset htext hentry
          rw [amount_carried h hvalue hamount] at hfor
          exact Or.inr ⟨rfl, Or.inr ⟨w, e, hwallet, hfor, hmoved⟩⟩

end Posting
end CryptoWallet
