import CryptoWallet.DepositCases
import CryptoWallet.OutgoingTransactions

/-!
# What the transaction workers can do to the database

The broadcaster and the watcher write one record at a time.  Each write is
described by the record before and after it, the guard it passed, and the event
it offers to the outbox.
-/

namespace CryptoWallet.Blockchain

open Tx

variable {σ : Type}

/-- The event about a transfer which failed. -/
def failedEvent (scope : Scope) (record : OutgoingTransaction) (payload : Payload)
    (dedupeKey : String) : Envelope :=
  newEvent scope .txFailed payload producer (some dedupeKey)
    (record.correlationId.map Subtype.val)

/-- A record is overwritten, and one event offered to the outbox. -/
def Db.Announces (db : Db) (record : OutgoingTransaction) (envelope : Envelope)
    (db' : Db) : Prop :=
  ∃ outbox, enqueueEvent db.outbox envelope = .ok outbox ∧
    db' = { db with outgoing := db.outgoing.replace record, outbox }

def Db.saved (db : Db) (record : OutgoingTransaction) : Db :=
  { db with outgoing := db.outgoing.replace record }

theorem announceFailure_ensures (scope : Scope) (record : OutgoingTransaction)
    (wasConfirmed : Bool) (reason code dedupeKey : String) (db : Db) :
    Ensures (announceFailure scope record wasConfirmed reason code dedupeKey) db
      (fun _ db' => ∃ payload, failurePayload record wasConfirmed reason code = .ok payload ∧
        db.Announces record (failedEvent scope record payload dedupeKey) db')
      fun _ => True := by
  unfold announceFailure
  apply Ensures.orRaise_bind
  · intro payload hpayload
    apply Ensures.orRaise_bind
    · intro _ _
      apply Ensures.modifyDb_bind
      apply (enqueue_ensures _ _).mono
      · rintro _ db' ⟨outbox, houtbox, rfl⟩
        exact ⟨payload, hpayload, outbox, houtbox, rfl⟩
      · exact fun _ _ => trivial
    · exact fun _ _ => trivial
  · exact fun _ _ => trivial

/-- The columns no statement writes after the INSERT. -/
structure OutgoingTransaction.SameRequest (record record' : OutgoingTransaction) : Prop where
  transferId : record'.transferId = record.transferId
  network : record'.network = record.network
  asset : record'.asset = record.asset
  fromAddress : record'.fromAddress = record.fromAddress
  toAddress : record'.toAddress = record.toAddress
  amount : record'.amount = record.amount
  nonce : record'.nonce = record.nonce
  correlationId : record'.correlationId = record.correlationId

/-! ## Accepting a request -/

/-- A record nobody has worked on. -/
structure OutgoingTransaction.Untouched (record : OutgoingTransaction) : Prop where
  status : record.status = .created
  txHash : record.txHash = none
  nonce : record.nonce = none
  blockNumber : record.blockNumber = none
  attempts : record.attempts = 0
  broadcastAt : record.broadcastAt = none

theorem proposedOutgoing_untouched {now : Nat} {payload : Payload} {correlationId : String}
    {record : OutgoingTransaction}
    (h : proposedOutgoing now payload correlationId = .ok record) : record.Untouched := by
  unfold proposedOutgoing at h
  simp only [bind_eq_ok] at h
  obtain ⟨_, _, _, _, _, _, _, _, _, _, _, _, _, _, _, _, _, _, _, _, _, _, h⟩ := h
  split at h
  next =>
    split at h
    next =>
      cases h
      exact ⟨rfl, rfl, rfl, rfl, rfl, rfl⟩
    next => cases h
  next => cases h

def unknownAddressReason : String := "unknown sending address"

/-- What a request for a transfer does. -/
inductive Accepted (scope : Scope) (payload : Payload) (correlationId : String) (db : Db) :
    Db → Prop where
  | duplicate (record : OutgoingTransaction)
      (hproposed : proposedOutgoing scope.now payload correlationId = .ok record)
      (htaken : db.outgoing.insert? record = none) :
      Accepted scope payload correlationId db db
  | accepted (record : OutgoingTransaction)
      (hproposed : proposedOutgoing scope.now payload correlationId = .ok record)
      (hknown : db.addresses.rows.any (·.address.val = record.fromAddress.val) = true)
      (outgoing : Table Uuid OutgoingTransaction OutgoingTransaction.transferId)
      (hinsert : db.outgoing.insert? record = some outgoing) :
      Accepted scope payload correlationId db { db with outgoing }
  | unknown (record : OutgoingTransaction)
      (hproposed : proposedOutgoing scope.now payload correlationId = .ok record)
      (hunknown : db.addresses.rows.any (·.address.val = record.fromAddress.val) = false)
      (outgoing : Table Uuid OutgoingTransaction OutgoingTransaction.transferId)
      (hinsert : db.outgoing.insert? record = some outgoing)
      (failed : Payload)
      (hpayload : failurePayload (record.failedFor unknownAddressReason) false
        unknownAddressReason "UNKNOWN_SENDING_ADDRESS" = .ok failed)
      (db' : Db)
      (hannounces : ({ db with outgoing } : Db).Announces
        (record.failedFor unknownAddressReason)
        (failedEvent scope record failed (failureKey record "UNKNOWN_SENDING_ADDRESS"))
        db') :
      Accepted scope payload correlationId db db'

theorem acceptTransferRequest_ensures (scope : Scope) (payload : Payload)
    (correlationId : String) (db : Db) :
    Ensures (acceptTransferRequest scope payload correlationId) db
      (fun _ db' => Accepted scope payload correlationId db db') fun _ => True := by
  unfold acceptTransferRequest
  apply Ensures.orRaise_bind
  · intro record hproposed
    apply Ensures.query_bind
    apply Ensures.query_bind
    cases hinsert : db.outgoing.insert? record with
    | none => exact Ensures.pure (.duplicate record hproposed hinsert)
    | some outgoing =>
        apply Ensures.modifyDb_bind
        dsimp only
        split
        next hknown => exact Ensures.pure (.accepted record hproposed hknown outgoing hinsert)
        next hunknown =>
          apply Ensures.bind (announceFailure_ensures scope
            (record.failedFor unknownAddressReason) false unknownAddressReason
            "UNKNOWN_SENDING_ADDRESS" _ { db with outgoing })
          rintro _ db' ⟨failed, hpayload, hannounces⟩
          exact Ensures.pure (.unknown record hproposed (by simpa using hunknown) outgoing
            hinsert failed hpayload db' hannounces)
  · exact fun _ _ => trivial

/-- The consumer records that it saw the event, and accepts a request. -/
inductive Dispatched (scope : Scope) (envelope : Envelope) (db : Db) : Db → Prop where
  | duplicate : Dispatched scope envelope db db
  | ignored (processedEvents : ProcessedEvents) :
      Dispatched scope envelope db { db with processedEvents }
  | accepted (processedEvents : ProcessedEvents)
      (hrequested : envelope.eventType = .transferRequested) (db' : Db)
      (haccepted : Accepted (correlationScope scope (some envelope.correlationId))
        envelope.payload envelope.correlationId { db with processedEvents } db') :
      Dispatched scope envelope db db'

theorem claimEvent_ensures (envelope : Envelope) (db : Db) :
    Ensures (claimEvent envelope) db
      (fun claimed db' => (claimed = false ∧ db' = db) ∨
        ∃ processedEvents, claimed = true ∧ db' = { db with processedEvents })
      fun _ => True := by
  unfold claimEvent
  split
  · exact Ensures.throw trivial
  · apply Ensures.orRaise_bind
    · intro _ _
      apply Ensures.query_bind
      split
      next => exact Ensures.pure (Or.inl ⟨rfl, rfl⟩)
      next processedEvents _ =>
        apply Ensures.modifyDb_bind
        exact Ensures.pure (Or.inr ⟨processedEvents, rfl, rfl⟩)
    · exact fun _ _ => trivial

theorem dispatch_ensures (scope : Scope) (envelope : Envelope) (db : Db) :
    Ensures (dispatch scope envelope) db
      (fun _ db' => Dispatched scope envelope db db') fun _ => True := by
  unfold dispatch
  apply Ensures.bind (claimEvent_ensures envelope db)
  rintro claimed db' (⟨rfl, rfl⟩ | ⟨processedEvents, rfl, rfl⟩)
  · exact Ensures.pure .duplicate
  · rw [if_pos rfl]
    split
    next hrequested =>
      apply (acceptTransferRequest_ensures _ _ _ _).mono
      · exact fun _ db' h => .accepted processedEvents hrequested db' h
      · exact fun _ _ => trivial
    next => exact Ensures.pure (.ignored processedEvents)

/-! ## The broadcaster -/

def broadcastedEvent (scope : Scope) (row record : OutgoingTransaction)
    (txHash : ChainHash) (payload : Payload) : Envelope :=
  newEvent scope .txBroadcasted payload producer
    (some (record.transferId.str ++ ":" ++ txHash.val ++ ":broadcast"))
    (row.correlationId.map Subtype.val)

def OutgoingTransaction.failedBroadcast (record : OutgoingTransaction) (reason : String) :
    OutgoingTransaction :=
  { record.failedFor reason with nextAttemptAt := none }

def OutgoingTransaction.retried (record : OutgoingTransaction) (now attempts : Nat)
    (reason : String) : OutgoingTransaction :=
  { record with
    status := .pending
    failureReason := some reason
    nextAttemptAt := some (now + leaseSeconds attempts) }

/-- The node may still take the transaction, and attempts are left. -/
def retriable (settings : Settings) (row : OutgoingTransaction) :
    Except ChainError ChainHash → Bool
  | .ok _ => false
  | .error (.transactionRejected _) => false
  | .error _ => row.attempts < settings.broadcastMaxAttempts

/-- The node has not taken the transaction, and no further attempt is made. -/
def abandoned (settings : Settings) (row : OutgoingTransaction)
    (answer : Except ChainError ChainHash) : Bool :=
  match answer with
  | .ok _ => false
  | .error _ => !retriable settings row answer

/-- What is written of the answer of the node to the claimed row. -/
inductive Answered (settings : Settings) (scope : Scope) (row : OutgoingTransaction)
    (db : Db) (record : OutgoingTransaction) :
    Except ChainError ChainHash → Db → Prop where
  | closed (txHash : ChainHash)
      (hstatus : record.status = .confirmed ∨ record.status = .failed) :
      Answered settings scope row db record (.ok txHash) db
  | broadcast (txHash : ChainHash)
      (hopen : record.status ≠ .confirmed ∧ record.status ≠ .failed)
      (payload : Payload) (hpayload : broadcastedPayload record txHash = .ok payload)
      (db' : Db)
      (hannounces : db.Announces (record.broadcastedAs scope.now txHash)
        (broadcastedEvent scope row record txHash payload) db') :
      Answered settings scope row db record (.ok txHash) db'
  | confirmed (answer : Except ChainError ChainHash)
      (habandoned : abandoned settings row answer = true)
      (hstatus : record.status = .confirmed) :
      Answered settings scope row db record answer db
  | failed (answer : Except ChainError ChainHash)
      (habandoned : abandoned settings row answer = true)
      (hopen : record.status ≠ .confirmed) (reason code : String) (payload : Payload)
      (hpayload : failurePayload (record.failedBroadcast reason) false reason code =
        .ok payload)
      (db' : Db)
      (hannounces : db.Announces (record.failedBroadcast reason)
        (failedEvent scope (record.failedBroadcast reason) payload
          (failureKey record code)) db') :
      Answered settings scope row db record answer db'
  | retried (answer : Except ChainError ChainHash)
      (hretriable : retriable settings row answer = true) (reason : String) :
      Answered settings scope row db record answer
        (db.saved (record.retried scope.now row.attempts reason))

theorem recordFailure_ensures (settings : Settings) (scope : Scope)
    (row : OutgoingTransaction) (answer : Except ChainError ChainHash)
    (habandoned : abandoned settings row answer = true) (reason code : String) (db : Db) :
    Ensures (recordFailure scope row reason code) db
      (fun _ db' => (db.outgoing.find? row.transferId = none ∧ db' = db) ∨
        ∃ record, db.outgoing.find? row.transferId = some record ∧
          Answered settings scope row db record answer db') fun _ => True := by
  unfold recordFailure
  apply Ensures.query_bind
  cases hfind : db.outgoing.find? row.transferId with
  | none => exact Ensures.pure (Or.inl ⟨rfl, rfl⟩)
  | some record =>
      dsimp only
      split
      next hstatus =>
        exact Ensures.pure (Or.inr ⟨record, rfl, .confirmed answer habandoned hstatus⟩)
      next hopen =>
        apply Ensures.bind (announceFailure_ensures scope
          (record.failedBroadcast (cutReason reason)) false (cutReason reason) code _ db)
        rintro _ db' ⟨payload, hpayload, hannounces⟩
        exact Ensures.pure (Or.inr ⟨record, rfl, .failed answer habandoned hopen
          (cutReason reason) code payload hpayload db' hannounces⟩)

theorem broadcastTx_ensures (settings : Settings) (scope : Scope)
    (row : OutgoingTransaction) (answer : Except ChainError ChainHash) (db : Db) :
    Ensures (broadcastTx settings scope row answer) db
      (fun _ db' => (db.outgoing.find? row.transferId = none ∧ db' = db) ∨
        ∃ record, db.outgoing.find? row.transferId = some record ∧
          Answered settings scope row db record answer db') fun _ => True := by
  have hretry : ∀ error : ChainError, retriable settings row (.error error) = true →
      Ensures (scheduleRetry scope.now row error.message) db
        (fun _ db' => (db.outgoing.find? row.transferId = none ∧ db' = db) ∨
          ∃ record, db.outgoing.find? row.transferId = some record ∧
            Answered settings scope row db record (.error error) db') fun _ => True := by
    intro error hretriable
    unfold scheduleRetry
    apply Ensures.query_bind
    cases hfind : db.outgoing.find? row.transferId with
    | none => exact Ensures.pure (Or.inl ⟨rfl, rfl⟩)
    | some record =>
        apply Ensures.orRaise_bind
        · intro _ _
          apply Ensures.modifyDb_bind
          exact Ensures.pure (Or.inr ⟨record, rfl,
            .retried (.error error) hretriable (cutReason error.message)⟩)
        · exact fun _ _ => trivial
  cases answer with
  | ok txHash =>
      unfold broadcastTx recordBroadcast
      apply Ensures.query_bind
      cases hfind : db.outgoing.find? row.transferId with
      | none => exact Ensures.pure (Or.inl ⟨rfl, rfl⟩)
      | some record =>
          dsimp only
          split
          next hstatus => exact Ensures.pure (Or.inr ⟨record, rfl, .closed txHash hstatus⟩)
          next hstatus =>
            rw [not_or] at hstatus
            apply Ensures.query_bind
            split
            · exact Ensures.throw trivial
            · apply Ensures.orRaise_bind
              · intro payload hpayload
                apply Ensures.modifyDb_bind
                apply Ensures.bind (enqueue_ensures _ _)
                rintro _ db' ⟨outbox, houtbox, rfl⟩
                exact Ensures.pure (Or.inr ⟨record, rfl, .broadcast txHash hstatus payload
                  hpayload _ ⟨outbox, houtbox, rfl⟩⟩)
              · exact fun _ _ => trivial
  | error error =>
      cases error with
      | transactionRejected message =>
          exact recordFailure_ensures settings scope row _ rfl message "REJECTED_BY_NODE" db
      | rpcUnavailable message =>
          dsimp only [broadcastTx]
          split
          next hattempts => exact hretry _ (by simpa [retriable] using hattempts)
          next hattempts =>
            exact recordFailure_ensures settings scope row _
              (by simpa [abandoned, retriable] using hattempts) message "RPC_UNAVAILABLE" db
      | other message =>
          dsimp only [broadcastTx]
          split
          next hattempts => exact hretry _ (by simpa [retriable] using hattempts)
          next hattempts =>
            exact recordFailure_ensures settings scope row _
              (by simpa [abandoned, retriable] using hattempts) message "BROADCAST_FAILED" db

/-- The answer is written to one version of the record, or not at all; where the
transaction was found before is kept. -/
theorem Answered.written {settings : Settings} {scope : Scope} {row : OutgoingTransaction}
    {db db' : Db} {record : OutgoingTransaction} {answer : Except ChainError ChainHash}
    (h : Answered settings scope row db record answer db') :
    db'.outgoing = db.outgoing ∨ ∃ record', record.SameRequest record' ∧
      record'.blockNumber = record.blockNumber ∧
      db'.outgoing = db.outgoing.replace record' := by
  cases h with
  | closed txHash hstatus => exact Or.inl rfl
  | broadcast txHash hopen payload hpayload db' hannounces =>
      obtain ⟨outbox, _, rfl⟩ := hannounces
      exact Or.inr ⟨record.broadcastedAs scope.now txHash,
        ⟨rfl, rfl, rfl, rfl, rfl, rfl, rfl, rfl⟩, rfl, rfl⟩
  | confirmed answer habandoned hstatus => exact Or.inl rfl
  | failed answer habandoned hopen reason code payload hpayload db' hannounces =>
      obtain ⟨outbox, _, rfl⟩ := hannounces
      exact Or.inr ⟨record.failedBroadcast reason, ⟨rfl, rfl, rfl, rfl, rfl, rfl, rfl, rfl⟩,
        rfl, rfl⟩
  | retried answer hretriable reason =>
      exact Or.inr ⟨record.retried scope.now row.attempts reason,
        ⟨rfl, rfl, rfl, rfl, rfl, rfl, rfl, rfl⟩, rfl, rfl⟩

/-! ## The watcher -/

def txConfirmedEvent (scope : Scope) (record : OutgoingTransaction) (txHash : ChainHash)
    (payload : Payload) : Envelope :=
  newEvent scope .txConfirmed payload producer
    (some (record.transferId.str ++ ":" ++ txHash.val ++ ":confirmed"))
    (record.correlationId.map Subtype.val)

/-- Pending for longer than the timeout. -/
def SeenRecord.stuck (settings : Settings) (now : Nat) (seen : SeenRecord) : Bool :=
  match seen.broadcastAt with
  | none => false
  | some broadcastAt => (settings.pendingTimeoutSeconds : Int) ≤ now - broadcastAt

def OutgoingTransaction.requeued (record : OutgoingTransaction) (now : Nat) :
    OutgoingTransaction :=
  { record with status := .pending, nextAttemptAt := some now }

def OutgoingTransaction.confirmed (record : OutgoingTransaction) : OutgoingTransaction :=
  { record with status := .confirmed }

def OutgoingTransaction.reorged (record : OutgoingTransaction) : OutgoingTransaction :=
  { record with status := .reorged, failureReason := some reorgReason }

/-- The record is promoted when its receipt is found in this block. -/
def OutgoingTransaction.ripe (settings : Settings) (head : Nat) (receipt : TxReceipt)
    (record : OutgoingTransaction) : Prop :=
  record.status = .broadcasted ∧ receipt.status ≠ 0 ∧
    settings.confirmationsRequired ≤ head + 1 - receipt.blockNumber

/-- What the watcher writes of the receipt it found. -/
inductive Checked (settings : Settings) (scope : Scope) (head : Nat) (seen : SeenRecord)
    (db : Db) (record : OutgoingTransaction) : Option TxReceipt → Db → Prop where
  | reverted (receipt : TxReceipt) (hreverted : receipt.status = 0)
      (hopen : record.status ≠ .failed) (payload : Payload)
      (hpayload : failurePayload ((record.minedIn head receipt).failedFor revertReason)
        false revertReason "REVERTED_ON_CHAIN" = .ok payload)
      (db' : Db)
      (hannounces : db.Announces ((record.minedIn head receipt).failedFor revertReason)
        (failedEvent scope record payload (failureKey record "REVERTED_ON_CHAIN")) db') :
      Checked settings scope head seen db record (some receipt) db'
  | confirmed (receipt : TxReceipt) (hripe : record.ripe settings head receipt)
      (payload : Payload)
      (hpayload : confirmedPayload (record.minedIn head receipt).confirmed seen.txHash
        receipt = .ok payload)
      (db' : Db)
      (hannounces : db.Announces (record.minedIn head receipt).confirmed
        (txConfirmedEvent scope record seen.txHash payload) db') :
      Checked settings scope head seen db record (some receipt) db'
  | mined (receipt : TxReceipt)
      (hreverted : receipt.status = 0 → record.status = .failed)
      (hripe : ¬record.ripe settings head receipt) :
      Checked settings scope head seen db record (some receipt)
        (db.saved (record.minedIn head receipt))
  | reorged (hseen : seen.status = .confirmed) (payload : Payload)
      (hpayload : failurePayload record.reorged true reorgReason "CHAIN_REORG" =
        .ok payload)
      (dedupeKey : String) (db' : Db)
      (hannounces : db.Announces record.reorged
        (failedEvent scope record payload dedupeKey) db') :
      Checked settings scope head seen db record none db'
  | waiting (hseen : seen.status ≠ .confirmed)
      (hstuck : seen.stuck settings scope.now = false) :
      Checked settings scope head seen db record none db
  | requeued (hseen : seen.status ≠ .confirmed)
      (hstuck : seen.stuck settings scope.now = true)
      (hattempts : seen.attempts < settings.broadcastMaxAttempts) :
      Checked settings scope head seen db record none (db.saved (record.requeued scope.now))
  | abandoned (hseen : seen.status ≠ .confirmed)
      (hstuck : seen.stuck settings scope.now = true)
      (hattempts : settings.broadcastMaxAttempts ≤ seen.attempts) (reason : String)
      (payload : Payload)
      (hpayload : failurePayload (record.failedFor reason) false reason "STUCK_PENDING" =
        .ok payload)
      (db' : Db)
      (hannounces : db.Announces (record.failedFor reason)
        (failedEvent scope record payload (failureKey record "STUCK_PENDING")) db') :
      Checked settings scope head seen db record none db'

theorem handleReceipt_ensures (settings : Settings) (scope : Scope) (head : Nat)
    (seen : SeenRecord) (record : OutgoingTransaction) (receipt : TxReceipt) (db : Db) :
    Ensures (handleReceipt settings scope head record seen.txHash receipt) db
      (fun _ db' => Checked settings scope head seen db record (some receipt) db')
      fun _ => True := by
  unfold handleReceipt
  dsimp only
  split
  next hreverted =>
    have hunripe : ¬record.ripe settings head receipt := fun h => h.2.1 hreverted
    split
    next hfailed =>
      apply Ensures.modifyDb_bind
      exact Ensures.pure (.mined receipt (fun _ => hfailed) hunripe)
    next hopen =>
      apply Ensures.bind (announceFailure_ensures scope
        ((record.minedIn head receipt).failedFor revertReason) false revertReason
        "REVERTED_ON_CHAIN" _ db)
      rintro _ db' ⟨payload, hpayload, hannounces⟩
      have hstatus : record.status ≠ .failed := hopen
      exact Ensures.pure (.reverted receipt hreverted hstatus payload hpayload db' hannounces)
  next hsuccess =>
    split
    next hdeep =>
      have hripe : record.ripe settings head receipt := ⟨hdeep.1, hsuccess, hdeep.2⟩
      apply Ensures.orRaise_bind
      · intro payload hpayload
        apply Ensures.modifyDb_bind
        apply Ensures.bind (enqueue_ensures _ _)
        rintro _ db' ⟨outbox, houtbox, rfl⟩
        exact Ensures.pure (.confirmed receipt hripe payload hpayload _
          ⟨outbox, houtbox, rfl⟩)
      · exact fun _ _ => trivial
    next hshallow =>
      apply Ensures.modifyDb_bind
      exact Ensures.pure (.mined receipt (fun h => (hsuccess h).elim)
        fun h => hshallow ⟨h.1, h.2.2⟩)

theorem handleStuck_ensures (settings : Settings) (scope : Scope) (head : Nat)
    (seen : SeenRecord) (record : OutgoingTransaction) (hseen : seen.status ≠ .confirmed)
    (db : Db) :
    Ensures (handleStuck settings scope record seen) db
      (fun _ db' => Checked settings scope head seen db record none db')
      fun _ => True := by
  unfold handleStuck
  cases hbroadcast : seen.broadcastAt with
  | none => exact Ensures.pure (.waiting hseen (by simp [SeenRecord.stuck, hbroadcast]))
  | some broadcastAt =>
      dsimp only
      split
      next hyoung =>
        refine Ensures.pure (.waiting hseen ?_)
        simpa [SeenRecord.stuck, hbroadcast] using hyoung
      next hold =>
        have hstuck : seen.stuck settings scope.now = true := by
          simpa [SeenRecord.stuck, hbroadcast] using hold
        split
        next hattempts =>
          apply Ensures.modifyDb_bind
          exact Ensures.pure (.requeued hseen hstuck hattempts)
        next hattempts =>
          apply Ensures.bind (announceFailure_ensures _ (record.failedFor _) false _
            "STUCK_PENDING" _ db)
          rintro _ db' ⟨payload, hpayload, hannounces⟩
          exact Ensures.pure (.abandoned hseen hstuck (Nat.le_of_not_lt hattempts) _ payload
            hpayload db' hannounces)

theorem checkTx_ensures (settings : Settings) (scope : Scope) (head : Nat)
    (transferId : Uuid) (seen : SeenRecord) (receipt : Option TxReceipt) (db : Db) :
    Ensures (checkTx settings scope head transferId seen receipt) db
      (fun outcome db' =>
        (db.outgoing.find? transferId = none ∧ outcome = .skipped ∧ db' = db) ∨
          ∃ record, db.outgoing.find? transferId = some record ∧
            Checked settings (correlationScope scope (record.correlationId.map Subtype.val))
              head seen db record receipt db') fun _ => True := by
  unfold checkTx
  apply Ensures.query_bind
  cases hfind : db.outgoing.find? transferId with
  | none => exact Ensures.pure (Or.inl ⟨rfl, rfl, rfl⟩)
  | some record =>
      cases receipt with
      | some receipt =>
          apply (handleReceipt_ensures settings _ head seen record receipt db).mono
          · exact fun _ db' h => Or.inr ⟨record, rfl, h⟩
          · exact fun _ _ => trivial
      | none =>
          dsimp only
          split
          next hseen =>
            unfold markOutgoingReorged
            apply Ensures.bind (announceFailure_ensures _ record.reorged true reorgReason
              "CHAIN_REORG" _ db)
            rintro _ db' ⟨payload, hpayload, hannounces⟩
            exact Ensures.pure (Or.inr ⟨record, rfl,
              .reorged hseen payload hpayload _ db' hannounces⟩)
          next hseen =>
            apply (handleStuck_ensures settings _ head seen record hseen db).mono
            · exact fun _ db' h => Or.inr ⟨record, rfl, h⟩
            · exact fun _ _ => trivial

/-- The watcher writes what it found of one record, or an exception ends its run. -/
theorem checkOne_cases (adapter : ChainAdapter σ) (settings : Settings) (scope : Scope)
    (receiptCall : σ) (head : Nat) (transferId : Uuid) (db : Db) :
    checkOne adapter settings scope receiptCall head transferId db = (none, db) ∨
      ((db.outgoing.find? transferId).bind OutgoingTransaction.seen = none ∧
        checkOne adapter settings scope receiptCall head transferId db =
          (some .skipped, db)) ∨
      ∃ record seen receipt outcome db', db.outgoing.find? transferId = some record ∧
        record.seen = some seen ∧ adapter.getReceipt receiptCall seen.txHash = .ok receipt ∧
        Checked settings (correlationScope scope (record.correlationId.map Subtype.val))
          head seen db record receipt db' ∧
        checkOne adapter settings scope receiptCall head transferId db =
          (some outcome, db') := by
  unfold checkOne
  cases hseen : (db.outgoing.find? transferId).bind OutgoingTransaction.seen with
  | none => exact Or.inr (Or.inl ⟨rfl, rfl⟩)
  | some seen =>
      obtain ⟨record, hrecord, hrecordSeen⟩ := Option.bind_eq_some_iff.mp hseen
      dsimp only
      cases hreceipt : adapter.getReceipt receiptCall seen.txHash with
      | error e => exact Or.inl rfl
      | ok receipt =>
          dsimp only
          cases hcommit : commit (checkTx settings scope head transferId seen receipt) db with
          | mk result db' =>
              cases result with
              | error e =>
                  left
                  rw [commit_error hcommit]
                  rfl
              | ok outcome =>
                  right
                  right
                  rcases (checkTx_ensures settings scope head transferId seen receipt
                    db).commit_ok hcommit with ⟨hnone, _⟩ | ⟨record', hrecord', hchecked⟩
                  · simp [hrecord] at hnone
                  · rw [hrecord, Option.some.injEq] at hrecord'
                    subst hrecord'
                    exact ⟨record, seen, receipt, outcome, db', hrecord, hrecordSeen,
                      hreceipt, hchecked, rfl⟩

/-! ### The loop -/

section Checked

variable {settings : Settings} {scope : Scope} {head : Nat} {seen : SeenRecord}
  {db db' : Db} {record : OutgoingTransaction} {receipt : Option TxReceipt}

/-- A check writes one version of its record, or nothing. -/
theorem Checked.written (h : Checked settings scope head seen db record receipt db') :
    db'.outgoing = db.outgoing ∨ ∃ record', record.SameRequest record' ∧
      db'.outgoing = db.outgoing.replace record' := by
  have hsame : ∀ record', record.SameRequest record' →
      db'.outgoing = db.outgoing.replace record' → db'.outgoing = db.outgoing ∨
        ∃ record', record.SameRequest record' ∧
          db'.outgoing = db.outgoing.replace record' :=
    fun record' hrequest hreplace => Or.inr ⟨record', hrequest, hreplace⟩
  cases h with
  | reverted receipt hreverted hopen payload hpayload db' hannounces =>
      obtain ⟨outbox, _, rfl⟩ := hannounces
      exact hsame ((record.minedIn head receipt).failedFor revertReason)
        ⟨rfl, rfl, rfl, rfl, rfl, rfl, rfl, rfl⟩ rfl
  | confirmed receipt hripe payload hpayload db' hannounces =>
      obtain ⟨outbox, _, rfl⟩ := hannounces
      exact hsame (record.minedIn head receipt).confirmed
        ⟨rfl, rfl, rfl, rfl, rfl, rfl, rfl, rfl⟩ rfl
  | mined receipt hreverted hripe =>
      exact hsame (record.minedIn head receipt) ⟨rfl, rfl, rfl, rfl, rfl, rfl, rfl, rfl⟩ rfl
  | reorged hseen payload hpayload dedupeKey db' hannounces =>
      obtain ⟨outbox, _, rfl⟩ := hannounces
      exact hsame record.reorged ⟨rfl, rfl, rfl, rfl, rfl, rfl, rfl, rfl⟩ rfl
  | waiting hseen hstuck => exact Or.inl rfl
  | requeued hseen hstuck hattempts =>
      exact hsame (record.requeued scope.now) ⟨rfl, rfl, rfl, rfl, rfl, rfl, rfl, rfl⟩ rfl
  | abandoned hseen hstuck hattempts reason payload hpayload db' hannounces =>
      obtain ⟨outbox, _, rfl⟩ := hannounces
      exact hsame (record.failedFor reason) ⟨rfl, rfl, rfl, rfl, rfl, rfl, rfl, rfl⟩ rfl

theorem Checked.find?_other (h : Checked settings scope head seen db record receipt db')
    {id : Uuid} (hid : id ≠ record.transferId) :
    db'.outgoing.find? id = db.outgoing.find? id := by
  rcases h.written with hsame | ⟨record', hrequest, hreplace⟩
  · rw [hsame]
  · rw [hreplace]
    apply Table.find?_replace_of_ne
    rwa [hrequest.transferId]

/-- Only a check which finds the record ripe confirms it. -/
theorem Checked.confirms (h : Checked settings scope head seen db record receipt db')
    (hrecord : db.outgoing.find? record.transferId = some record)
    (hopen : record.status ≠ .confirmed) {record' : OutgoingTransaction}
    (hrecord' : db'.outgoing.find? record.transferId = some record')
    (hconfirmed : record'.status = .confirmed) :
    ∃ found, receipt = some found ∧ record.ripe settings head found := by
  have hwritten : ∀ written, written.transferId = record.transferId →
      written.status ≠ .confirmed →
      (db.outgoing.replace written).find? record.transferId = some record' → False := by
    intro written hkey hstatus hfind
    rw [Table.find?_replace_of_key _ hkey hrecord, Option.some.injEq] at hfind
    exact hstatus (hfind ▸ hconfirmed)
  cases h with
  | reverted receipt hreverted hopen' payload hpayload db' hannounces =>
      obtain ⟨outbox, _, rfl⟩ := hannounces
      exact (hwritten ((record.minedIn head receipt).failedFor revertReason) rfl
        (by simp [OutgoingTransaction.failedFor]) hrecord').elim
  | confirmed receipt hripe payload hpayload db' hannounces => exact ⟨receipt, rfl, hripe⟩
  | mined receipt hreverted hripe =>
      exact (hwritten (record.minedIn head receipt) rfl hopen hrecord').elim
  | reorged hseen payload hpayload dedupeKey db' hannounces =>
      obtain ⟨outbox, _, rfl⟩ := hannounces
      exact (hwritten record.reorged rfl (by simp [OutgoingTransaction.reorged])
        hrecord').elim
  | waiting hseen hstuck =>
      rw [hrecord, Option.some.injEq] at hrecord'
      exact (hopen (hrecord' ▸ hconfirmed)).elim
  | requeued hseen hstuck hattempts =>
      exact (hwritten (record.requeued scope.now) rfl
        (by simp [OutgoingTransaction.requeued]) hrecord').elim
  | abandoned hseen hstuck hattempts reason payload hpayload db' hannounces =>
      obtain ⟨outbox, _, rfl⟩ := hannounces
      exact (hwritten (record.failedFor reason) rfl
        (by simp [OutgoingTransaction.failedFor]) hrecord').elim

end Checked

/-- A record is written in its own turn only. -/
theorem checkOne_ownRow (adapter : ChainAdapter σ) (settings : Settings) (scope : Scope)
    (calls : Uuid → σ) (head : Nat) :
    OwnRow (fun id => checkOne adapter settings scope (calls id) head id)
      fun id db => db.outgoing.find? id := by
  intro id other db hother
  rcases checkOne_cases adapter settings scope (calls id) head id db with
    hraised | ⟨_, hskipped⟩ | ⟨record, seen, receipt, outcome, db', hrecord, _, _, hchecked,
      hreturned⟩
  · simp only [hraised]
  · simp only [hskipped]
  · simp only [hreturned]
    apply hchecked.find?_other
    rw [Table.key_of_find? hrecord]
    exact hother

theorem mem_candidates {settings : Settings} {head : Nat} {db : Db} {id : Uuid} :
    id ∈ candidates settings head db ↔
      ∃ record, db.outgoing.find? id = some record ∧
        record.candidate settings head = true := by
  unfold candidates
  rw [List.mem_map]
  constructor
  · rintro ⟨record, hrecord, rfl⟩
    obtain ⟨hmem, hcandidate⟩ := List.mem_filter.mp hrecord
    exact ⟨record, db.outgoing.find?_of_mem hmem, hcandidate⟩
  · rintro ⟨record, hrecord, hcandidate⟩
    exact ⟨record, List.mem_filter.mpr ⟨Table.mem_of_find? hrecord, hcandidate⟩,
      Table.key_of_find? hrecord⟩

theorem candidates_nodup (settings : Settings) (head : Nat) (db : Db) :
    (candidates settings head db).Nodup :=
  db.outgoing.nodup.sublist (List.filter_sublist.map _)

end CryptoWallet.Blockchain
