import CryptoWallet.DepositNews

/-!
# The transactions of the blockchain service

A worker commits after each row it works on, so any number of workers which overlap
leave the database in a state which these transactions reach one after another.  What a
worker read before its transaction is an argument of the transaction.
-/

namespace CryptoWallet.Blockchain

open Tx

variable {σ : Type}

inductive ServiceStep where
  | issueAddress (ownerRef network generated : String)
  | scan (scope : Scope) (newId : TransferLog → Uuid) (plan : ScanPlan)
  | reverify (scope : Scope) (head : Nat) (found : Option (Nat × ChainHash))
      (id : DepositId)
  | request (scope : Scope) (envelope : Envelope)
  | claim (now limit : Nat)
  | answer (scope : Scope) (row : OutgoingTransaction)
      (reply : Except ChainError ChainHash)
  | check (scope : Scope) (head : Nat) (transferId : Uuid) (seen : SeenRecord)
      (receipt : Option TxReceipt)
  | relay (relaySettings : RelaySettings) (now : Nat) (publishError : EventId → Option String)

def ServiceStep.run (settings : Settings) (step : ServiceStep) (db : Db) : Db :=
  match step with
  | .issueAddress ownerRef network generated =>
    (commit (getOrCreateAddress ownerRef network generated) db).2
  | .scan scope newId plan => (commit (scanTx settings scope newId plan) db).2
  | .reverify scope head found id => (commit (reverifyTx settings scope head found id) db).2
  | .request scope envelope => (commit (dispatch scope envelope) db).2
  | .claim now limit => (claimDue now limit db).2
  | .answer scope row reply => (commit (broadcastTx settings scope row reply) db).2
  | .check scope head transferId seen receipt =>
    (commit (checkTx settings scope head transferId seen receipt) db).2
  | .relay relaySettings now publishError =>
    { db with outbox := (relayOnce relaySettings now publishError db.outbox).1 }

/-- The second state is reached from the first by transactions of the service. -/
def Db.Commits (settings : Settings) (db db' : Db) : Prop :=
  ∃ steps, db' = runSteps (ServiceStep.run settings) db steps

theorem Db.Commits.refl (settings : Settings) (db : Db) : db.Commits settings db :=
  ⟨[], rfl⟩

theorem Db.Commits.step {settings : Settings} {db db' : Db} (h : db.Commits settings db')
    (step : ServiceStep) : db.Commits settings (step.run settings db') := by
  obtain ⟨steps, rfl⟩ := h
  exact ⟨steps ++ [step], by rw [runSteps_append, runSteps_cons, runSteps_nil]⟩

theorem Db.Commits.trans {settings : Settings} {db db' db'' : Db}
    (h : db.Commits settings db') (h' : db'.Commits settings db'') :
    db.Commits settings db'' := by
  obtain ⟨steps, rfl⟩ := h
  obtain ⟨steps', rfl⟩ := h'
  exact ⟨steps ++ steps', (runSteps_append db steps steps').symm⟩

/-- What every transaction keeps is kept between the two states. -/
theorem Db.Commits.preserves {settings : Settings} {db db' : Db}
    (h : db.Commits settings db') {I : Db → Prop}
    (hstep : ∀ db step, I db → I (ServiceStep.run settings step db)) (hdb : I db) :
    I db' := by
  obtain ⟨steps, rfl⟩ := h
  exact runSteps_preserves hstep hdb steps

/-! ## A run of a worker is a run of transactions -/

section Tasks

variable (adapter : ChainAdapter σ) (settings : Settings) (scope : Scope)

theorem scanOnce_commits (newId : TransferLog → Uuid) (calls : ScanCalls σ) (db : Db) :
    db.Commits settings (scanOnce adapter settings scope newId calls db).2 := by
  unfold scanOnce
  split
  next => exact .refl settings db
  next => exact .refl settings db
  next plan _ =>
    have hcommits := (Db.Commits.refl settings db).step (.scan scope newId plan)
    simp only [ServiceStep.run] at hcommits
    cases hcommit : commit (scanTx settings scope newId plan) db with
    | mk result db' =>
        rw [hcommit] at hcommits
        cases result <;> exact hcommits

theorem watchDepositsOnce_commits (headCall : σ) (calls : DepositId → LookupCalls σ)
    (db : Db) :
    db.Commits settings (watchDepositsOnce adapter settings scope headCall calls db).2 := by
  rcases watchDepositsOnce_cases adapter settings scope headCall calls db with
    hsame | ⟨head, _, _, hresult⟩
  · rw [hsame]
    exact .refl settings db
  rw [hresult]
  apply visitAll_preserves (I := fun db' => db.Commits settings db')
  · intro id _ before hbefore
    unfold reverify
    cases hfind : before.deposits.find? id with
    | none => exact hbefore
    | some d =>
        dsimp only
        cases hlocate : locate adapter (calls id) d with
        | error e => exact hbefore
        | ok found => exact hbefore.step (.reverify scope head found id)
  · exact .refl settings db

theorem broadcastOnce_commits (limit : Nat) (chain : σ) (db : Db) :
    db.Commits settings (broadcastOnce adapter settings scope limit chain db).2.2 := by
  apply visitAll_preserves (I := fun state : σ × Db => db.Commits settings state.2)
  · intro row _ state hstate
    exact hstate.step (.answer (correlationScope scope (row.correlationId.map Subtype.val))
      row (adapter.sendTransfer row.sendRequest state.1).1)
  · exact (Db.Commits.refl settings db).step (.claim scope.now limit)

theorem watchOutgoingOnce_commits (headCall : σ) (calls : Uuid → σ) (db : Db) :
    db.Commits settings
      (watchOutgoingOnce adapter settings scope headCall calls db).2 := by
  unfold watchOutgoingOnce
  split
  next => exact .refl settings db
  next => exact .refl settings db
  next head _ =>
    apply visitAll_preserves (I := fun db' => db.Commits settings db')
    · intro transferId _ before hbefore
      unfold checkOne
      split
      next => exact hbefore
      next seen _ =>
        split
        next => exact hbefore
        next receipt _ => exact hbefore.step (.check scope head transferId seen receipt)
    · exact .refl settings db

end Tasks

/-- Every task of the service is a run of its transactions. -/
theorem ServiceTask.run_commits (adapter : ChainAdapter σ) (settings : Settings)
    (task : ServiceTask σ) (db : Db) :
    db.Commits settings (task.run adapter settings db) := by
  cases task with
  | deposits task =>
      cases task with
      | issueAddress ownerRef network generated =>
          exact (Db.Commits.refl settings db).step (.issueAddress ownerRef network generated)
      | scan scope newId calls =>
          exact scanOnce_commits adapter settings scope newId calls db
      | watch scope headCall calls =>
          exact watchDepositsOnce_commits adapter settings scope headCall calls db
  | request scope envelope => exact (Db.Commits.refl settings db).step (.request scope envelope)
  | broadcast scope limit chain =>
      exact broadcastOnce_commits adapter settings scope limit chain db
  | watchOutgoing scope headCall calls =>
      exact watchOutgoingOnce_commits adapter settings scope headCall calls db
  | relay relaySettings now publishError =>
      exact (Db.Commits.refl settings db).step (.relay relaySettings now publishError)

theorem ServiceTask.runs_commit (adapter : ChainAdapter σ) (settings : Settings)
    (tasks : List (ServiceTask σ)) (db : Db) :
    db.Commits settings (runSteps (ServiceTask.run adapter settings) db tasks) := by
  apply runSteps_preserves (I := fun db' => db.Commits settings db')
  · intro before task hbefore
    exact hbefore.trans (task.run_commits adapter settings before)
  · exact .refl settings db

/-! ## The assets of the rows -/

/-- The service has announced the row, so it knows the asset. -/
structure Db.AssetsKnown (db : Db) : Prop where
  deposits : ∀ d ∈ db.deposits.rows, (getAsset d.asset.val).isSome = true
  outgoing : ∀ record ∈ db.outgoing.rows,
    record.status = .broadcasted ∨ record.status = .confirmed →
      (getAsset record.asset.val).isSome = true

theorem depositPayload_asset {d : Deposit} {confirmations : Nat} {payload : Payload}
    (h : depositPayload d confirmations = .ok payload) :
    (getAsset d.asset.val).isSome = true := by
  unfold depositPayload at h
  cases hasset : getAsset d.asset.val with
  | none => simp [hasset] at h
  | some asset => rfl

theorem broadcastedPayload_asset {record : OutgoingTransaction} {txHash : ChainHash}
    {payload : Payload} (h : broadcastedPayload record txHash = .ok payload) :
    (getAsset record.asset.val).isSome = true := by
  unfold broadcastedPayload at h
  cases hasset : getAsset record.asset.val with
  | none => simp [hasset] at h
  | some asset => rfl

section Assets

variable {settings : Settings} {scope : Scope} {db db' : Db}

theorem Db.AssetsKnown.deposit (h : db.AssetsKnown) {d d' : Deposit}
    (hd : db.deposits.find? d'.identity = some d)
    (hdeposits : db'.deposits = db.deposits.replace d')
    (houtgoing : db'.outgoing = db.outgoing) (hasset : d'.asset = d.asset) :
    db'.AssetsKnown := by
  refine ⟨?_, ?_⟩
  · intro row hrow
    rw [hdeposits] at hrow
    rcases (Table.mem_replace _ hd).mp hrow with rfl | ⟨hold, _⟩
    · rw [hasset]
      exact h.deposits d (Table.mem_of_find? hd)
    · exact h.deposits row hold
  · rw [houtgoing]
    exact h.outgoing

theorem Db.AssetsKnown.record (h : db.AssetsKnown) {record record' : OutgoingTransaction}
    (hrecord : db.outgoing.find? record.transferId = some record)
    (hkey : record'.transferId = record.transferId) (hdeposits : db'.deposits = db.deposits)
    (houtgoing : db'.outgoing = db.outgoing.replace record')
    (hasset : record'.status = .broadcasted ∨ record'.status = .confirmed →
      (getAsset record'.asset.val).isSome = true) :
    db'.AssetsKnown := by
  refine ⟨?_, ?_⟩
  · rw [hdeposits]
    exact h.deposits
  · intro row hrow
    rw [← hkey] at hrecord
    rw [houtgoing] at hrow
    rcases (Table.mem_replace _ hrecord).mp hrow with rfl | ⟨hold, _⟩
    · exact hasset
    · exact h.outgoing row hold

theorem Upserted.assetsKnown {newId : Uuid} {entry : TransferLog}
    (hupserted : Upserted scope newId entry db db') (h : db.AssetsKnown) :
    db'.AssetsKnown := by
  cases hupserted with
  | inserted proposed hproposed deposits hinsert payload hpayload outbox houtbox =>
      refine ⟨?_, h.outgoing⟩
      intro row hrow
      rcases (Table.mem_insert? hinsert).mp hrow with hold | rfl
      · exact h.deposits row hold
      · exact depositPayload_asset hpayload
  | revived proposed hproposed stored hstored hreorged payload hpayload outbox houtbox =>
      have hkey : stored.identity = proposed.identity := Table.key_of_find? hstored
      have hfind : db.deposits.find? (stored.revived entry).identity = some stored := by
        rw [← hkey] at hstored
        exact hstored
      exact h.deposit hfind rfl rfl rfl
  | known proposed hproposed stored hstored hlive => exact h

theorem UpsertedAll.assetsKnown {newId : TransferLog → Uuid} {logs : List TransferLog}
    (hupserted : UpsertedAll scope newId logs db db') (h : db.AssetsKnown) :
    db'.AssetsKnown := by
  induction hupserted with
  | nil db => exact h
  | cons hfirst hrest ih => exact ih (hfirst.assetsKnown h)

theorem Reverified.assetsKnown {head : Nat} {d : Deposit} {found : Option (Nat × ChainHash)}
    (hreverified : Reverified settings scope head db d found db')
    (hd : db.deposits.find? d.identity = some d) (h : db.AssetsKnown) : db'.AssetsKnown := by
  cases hreverified with
  | reorged payload hpayload outbox houtbox =>
      have hfind : db.deposits.find? (d.reorgedAtTime scope.now).identity = some d := hd
      exact h.deposit hfind rfl rfl rfl
  | confirmed blockNumber blockHash hripe payload hpayload outbox houtbox =>
      have hfind : db.deposits.find?
          ((d.movedTo head blockNumber blockHash).confirmedAtTime scope.now).identity =
            some d := hd
      exact h.deposit hfind rfl rfl rfl
  | moved blockNumber blockHash hripe =>
      have hfind : db.deposits.find? (d.movedTo head blockNumber blockHash).identity =
          some d := hd
      exact h.deposit hfind rfl rfl rfl

theorem Accepted.assetsKnown {payload : Payload} {correlationId : String}
    (haccepted : Accepted scope payload correlationId db db') (h : db.AssetsKnown) :
    db'.AssetsKnown := by
  have hinserted : ∀ record outgoing, OutgoingTransaction.Untouched record →
      db.outgoing.insert? record = some outgoing →
      Db.AssetsKnown { db with outgoing } := by
    intro record outgoing huntouched hinsert
    refine ⟨h.deposits, ?_⟩
    intro row hrow hstatus
    rcases (Table.mem_insert? hinsert).mp hrow with hold | rfl
    · exact h.outgoing row hold hstatus
    · simp [huntouched.status] at hstatus
  cases haccepted with
  | duplicate record hproposed htaken => exact h
  | accepted record hproposed hknown outgoing hinsert =>
      exact hinserted record outgoing (proposedOutgoing_untouched hproposed) hinsert
  | unknown record hproposed hunknown outgoing hinsert failed hpayload db' hannounces =>
      obtain ⟨outbox, _, rfl⟩ := hannounces
      have hmid := hinserted record outgoing (proposedOutgoing_untouched hproposed) hinsert
      have hstored : outgoing.find? record.transferId = some record :=
        (Table.find?_insert? hinsert _).trans (if_pos rfl)
      have hkey : (record.failedFor unknownAddressReason).transferId = record.transferId :=
        rfl
      exact hmid.record hstored hkey rfl rfl (by simp [OutgoingTransaction.failedFor])

theorem Answered.assetsKnown {row record : OutgoingTransaction}
    {answer : Except ChainError ChainHash}
    (hanswered : Answered settings scope row db record answer db')
    (hrecord : db.outgoing.find? record.transferId = some record) (h : db.AssetsKnown) :
    db'.AssetsKnown := by
  cases hanswered with
  | closed txHash hstatus => exact h
  | confirmed answer habandoned hstatus => exact h
  | broadcast txHash hopen payload hpayload db' hannounces =>
      obtain ⟨outbox, _, rfl⟩ := hannounces
      have hkey : (record.broadcastedAs scope.now txHash).transferId = record.transferId := rfl
      exact h.record hrecord hkey rfl rfl fun _ => broadcastedPayload_asset hpayload
  | failed answer habandoned hopen reason code payload hpayload db' hannounces =>
      obtain ⟨outbox, _, rfl⟩ := hannounces
      have hkey : (record.failedBroadcast reason).transferId = record.transferId := rfl
      exact h.record hrecord hkey rfl rfl
        (by simp [OutgoingTransaction.failedBroadcast, OutgoingTransaction.failedFor])
  | retried answer hretriable reason =>
      have hkey : (record.retried scope.now row.attempts reason).transferId =
          record.transferId := rfl
      exact h.record hrecord hkey rfl rfl (by simp [OutgoingTransaction.retried])

theorem Checked.assetsKnown {head : Nat} {seen : SeenRecord} {record : OutgoingTransaction}
    {receipt : Option TxReceipt}
    (hchecked : Checked settings scope head seen db record receipt db')
    (hrecord : db.outgoing.find? record.transferId = some record) (h : db.AssetsKnown) :
    db'.AssetsKnown := by
  have hopen := h.outgoing record (Table.mem_of_find? hrecord)
  cases hchecked with
  | reverted receipt hreverted hopen payload hpayload db' hannounces =>
      obtain ⟨outbox, _, rfl⟩ := hannounces
      have hkey : ((record.minedIn head receipt).failedFor revertReason).transferId =
          record.transferId := rfl
      exact h.record hrecord hkey rfl rfl (by simp [OutgoingTransaction.failedFor])
  | confirmed receipt hripe payload hpayload db' hannounces =>
      obtain ⟨outbox, _, rfl⟩ := hannounces
      have hkey : (record.minedIn head receipt).confirmed.transferId = record.transferId := rfl
      exact h.record hrecord hkey rfl rfl fun _ => hopen (Or.inl hripe.1)
  | mined receipt hreverted hripe =>
      have hkey : (record.minedIn head receipt).transferId = record.transferId := rfl
      exact h.record hrecord hkey rfl rfl hopen
  | reorged hseen payload hpayload dedupeKey db' hannounces =>
      obtain ⟨outbox, _, rfl⟩ := hannounces
      have hkey : record.reorged.transferId = record.transferId := rfl
      exact h.record hrecord hkey rfl rfl (by simp [OutgoingTransaction.reorged])
  | waiting hseen hstuck => exact h
  | requeued hseen hstuck hattempts =>
      have hkey : (record.requeued scope.now).transferId = record.transferId := rfl
      exact h.record hrecord hkey rfl rfl (by simp [OutgoingTransaction.requeued])
  | abandoned hseen hstuck hattempts reason payload hpayload db' hannounces =>
      obtain ⟨outbox, _, rfl⟩ := hannounces
      have hkey : (record.failedFor reason).transferId = record.transferId := rfl
      exact h.record hrecord hkey rfl rfl (by simp [OutgoingTransaction.failedFor])

end Assets

theorem ServiceStep.run_assetsKnown {settings : Settings} (db : Db) (step : ServiceStep)
    (h : db.AssetsKnown) : (step.run settings db).AssetsKnown := by
  cases step with
  | issueAddress ownerRef network generated =>
      apply commit_preserves (I := Db.AssetsKnown) h
      apply (getOrCreateAddress_ensures ownerRef network generated db).mono
      · rintro _ db' ⟨addresses, rfl, _⟩
        exact ⟨h.deposits, h.outgoing⟩
      · exact fun _ _ => trivial
  | scan scope newId plan =>
      apply commit_preserves (I := Db.AssetsKnown) h
      apply (scanTx_ensures settings scope newId plan db).mono
      · rintro _ db' ⟨mid, hmid, rfl⟩
        exact ⟨(hmid.assetsKnown h).deposits, (hmid.assetsKnown h).outgoing⟩
      · exact fun _ _ => trivial
  | reverify scope head found id =>
      apply commit_preserves (I := Db.AssetsKnown) h
      apply (reverifyTx_ensures settings scope head found id db).mono
      · rintro _ db' (⟨_, _, rfl⟩ | ⟨d, hd, hreverified⟩)
        · exact h
        · rw [← Table.key_of_find? hd] at hd
          exact hreverified.assetsKnown hd h
      · exact fun _ _ => trivial
  | request scope envelope =>
      apply commit_preserves (I := Db.AssetsKnown) h
      apply (dispatch_ensures scope envelope db).mono
      · intro _ db' hdispatched
        cases hdispatched with
        | duplicate => exact h
        | ignored processedEvents => exact ⟨h.deposits, h.outgoing⟩
        | accepted processedEvents hrequested db' haccepted =>
            exact haccepted.assetsKnown ⟨h.deposits, h.outgoing⟩
      · exact fun _ _ => trivial
  | claim now limit =>
      refine ⟨h.deposits, ?_⟩
      intro record hrecord hstatus
      obtain ⟨old, hold, rfl⟩ := List.mem_map.mp hrecord
      by_cases hdue : old ∈ dueRecords now limit db
      · rw [if_pos hdue] at hstatus
        simp [OutgoingTransaction.claimed] at hstatus
      · rw [if_neg hdue] at hstatus ⊢
        exact h.outgoing old hold hstatus
  | answer scope row reply =>
      apply commit_preserves (I := Db.AssetsKnown) h
      apply (broadcastTx_ensures settings scope row reply db).mono
      · rintro _ db' (⟨_, rfl⟩ | ⟨record, hrecord, hanswered⟩)
        · exact h
        · rw [← Table.key_of_find? hrecord] at hrecord
          exact hanswered.assetsKnown hrecord h
      · exact fun _ _ => trivial
  | check scope head transferId seen receipt =>
      apply commit_preserves (I := Db.AssetsKnown) h
      apply (checkTx_ensures settings scope head transferId seen receipt db).mono
      · rintro _ db' (⟨_, _, rfl⟩ | ⟨record, hrecord, hchecked⟩)
        · exact h
        · rw [← Table.key_of_find? hrecord] at hrecord
          exact hchecked.assetsKnown hrecord h
      · exact fun _ _ => trivial
  | relay relaySettings now publishError => exact ⟨h.deposits, h.outgoing⟩

theorem Db.AssetsKnown.empty : Db.empty.AssetsKnown :=
  ⟨by simp [Db.empty], by simp [Db.empty]⟩

theorem Db.Commits.assetsKnown {settings : Settings} {db : Db}
    (h : Db.empty.Commits settings db) : db.AssetsKnown :=
  h.preserves (fun db step => step.run_assetsKnown db) .empty

end CryptoWallet.Blockchain
