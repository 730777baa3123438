import CryptoWallet.BlockchainSchema
import Mathlib.Data.List.Sort

/-!
# The life of an outgoing transaction

The consumer only records the request.  The broadcaster claims due rows under
a short lease and talks to the node outside of any transaction; the watcher
follows the broadcast transactions, confirms them, and notices the ones which
reverted, got stuck or disappeared.  The reference given to the node is the id
of the transfer, so a second broadcast is the same transaction.
-/

namespace CryptoWallet.Blockchain

open Tx

variable {σ : Type}

def saveOutgoing (record : OutgoingTransaction) : ServiceTx Unit :=
  modifyDb fun db => { db with outgoing := db.outgoing.replace record }

/-- `str(exc)[:500]`. -/
def cutReason (reason : String) : String :=
  String.ofList (reason.toList.take 500)

def optionalHash : Option ChainHash → Json
  | none => .null
  | some hash => .str hash.val

def failurePayload (record : OutgoingTransaction) (wasConfirmed : Bool)
    (reason code : String) : Except Failure Payload :=
  match getAsset record.asset.val with
  | none => .error (.keyError record.asset.val)
  | some asset => .ok [
      ("transfer_id", .str record.transferId.str),
      ("tx_hash", optionalHash record.txHash),
      ("network", .str record.network.val),
      ("asset", .str record.asset.val),
      ("amount", .str (formatAmount record.amount asset.decimals)),
      ("amount_units", .str (toString (record.amount : Int))),
      ("reason", .str reason),
      ("code", .str code),
      ("attempts", .int record.attempts),
      ("was_confirmed", .bool wasConfirmed)]

/-- Save the failed record and announce the failure. -/
def announceFailure (scope : Scope) (record : OutgoingTransaction)
    (wasConfirmed : Bool) (reason code dedupeKey : String) : ServiceTx Unit := do
  let payload ← orRaise (failurePayload record wasConfirmed reason code)
  let _ ← orRaise (bindString reason)
  saveOutgoing record
  enqueue (newEvent scope .txFailed payload producer (some dedupeKey)
    (record.correlationId.map Subtype.val))

def failureKey (record : OutgoingTransaction) (code : String) : String :=
  record.transferId.str ++ ":" ++ code

def OutgoingTransaction.failedFor (record : OutgoingTransaction) (reason : String) :
    OutgoingTransaction :=
  { record with status := .failed, failureReason := some reason }

/-! ## Accepting a request -/

/-- A payload value bound to a NOT NULL column. -/
def requiredColumn (limit : Nat) (value : Json) : Except Failure (Varchar limit) := do
  match ← bindText value with
  | none => .error (.integrity .outgoingTransactionsNotNull)
  | some text => varchar limit text

/-- The row the INSERT proposes, tested against types and constraints. -/
def proposedOutgoing (now : Nat) (payload : Payload) (correlationId : String) :
    Except Failure OutgoingTransaction := do
  let transferId ← uuidOf (← payload.item "transfer_id")
  let fromValue ← payload.item "from_address"
  let toValue ← payload.item "to_address"
  let amount ← pyIntOf (← payload.item "amount_units")
  let network ← requiredColumn 32 (payload.getD "network" (.str "BSC"))
  let asset ← requiredColumn 16 (payload.getD "asset" (.str "USDT"))
  let fromAddress ← requiredColumn 64 fromValue
  let toAddress ← requiredColumn 64 toValue
  let correlationId ← varchar 64 correlationId
  if hfits : amount.natAbs < 10 ^ 78 then
    if hpositive : 0 < amount then
      .ok {
        transferId, network, asset, fromAddress, toAddress
        amount := amount.natAbs
        txHash := none
        nonce := none
        status := .created
        blockNumber := none
        blockHash := none
        confirmations := 0
        failureReason := none
        attempts := 0
        nextAttemptAt := none
        broadcastAt := none
        correlationId := some correlationId
        createdAt := now
        amountPositive := Int.natAbs_pos.mpr (ne_of_gt hpositive)
        amountFits := hfits }
    else .error (.integrity .ckOutgoingAmountPositive)
  else .error .dataError

inductive Acceptance where
  | duplicate
  | processed
  | ignored
  deriving DecidableEq

def acceptTransferRequest (scope : Scope) (payload : Payload)
    (correlationId : String) : ServiceTx Acceptance := do
  let record ← orRaise (proposedOutgoing scope.now payload correlationId)
  let known ← query fun db =>
    db.addresses.rows.any (·.address.val = record.fromAddress.val)
  match ← query (·.outgoing.insert? record) with
  | none => return .duplicate
  | some outgoing =>
    modifyDb fun db => { db with outgoing }
    if known then return .processed
    else
      -- nobody could sign for this address
      let failed := record.failedFor "unknown sending address"
      announceFailure scope failed false "unknown sending address"
        "UNKNOWN_SENDING_ADDRESS" (failureKey failed "UNKNOWN_SENDING_ADDRESS")
      return .processed

def consumerName : String := "blockchain-service"

def claimEvent (envelope : Envelope) : ServiceTx Bool := do
  match envelope.eventId with
  | .malformed _ => throw .valueError
  | eventId =>
    let _ ← orRaise (varchar 64 envelope.eventType.name)
    match ← query (·.processedEvents.insert?
        ⟨consumerName, eventId, envelope.eventType⟩) with
    | none => return false
    | some processedEvents =>
      modifyDb fun db => { db with processedEvents }
      return true

def dispatch (scope : Scope) (envelope : Envelope) : ServiceTx Acceptance := do
  if ← claimEvent envelope then
    match envelope.eventType with
    | .transferRequested =>
      acceptTransferRequest (correlationScope scope (some envelope.correlationId))
        envelope.payload envelope.correlationId
    | _ => return .ignored
  else return .duplicate

/-! ## The broadcaster -/

def leaseSeconds (attempts : Nat) : Nat := min 60 (2 ^ min attempts 6)

def OutgoingTransaction.due (now : Nat) (record : OutgoingTransaction) : Bool :=
  (record.status = .created || record.status = .pending) &&
    match record.nextAttemptAt with
    | none => true
    | some time => time ≤ now

def dueRecords (now limit : Nat) (db : Db) : List OutgoingTransaction :=
  ((db.outgoing.select (·.due now)).insertionSort
    fun r r' => r.createdAt ≤ r'.createdAt).take limit

def OutgoingTransaction.claimed (now : Nat) (record : OutgoingTransaction) :
    OutgoingTransaction :=
  { record with
    attempts := record.attempts + 1
    status := .pending
    nextAttemptAt := some (now + leaseSeconds 1) }

/-- The UPDATE which claims the due rows; its result is RETURNING. -/
def claimDue (now limit : Nat) (db : Db) : List OutgoingTransaction × Db :=
  let due := dueRecords now limit db
  (due.map (·.claimed now),
    { db with
      outgoing := db.outgoing.mapRows
        (fun record => if record ∈ due then record.claimed now else record)
        (by
          intro record
          split <;> rfl) })

inductive BroadcastOutcome where
  | broadcast
  | failed
  | retry
  | skipped
  deriving DecidableEq

def recordFailure (scope : Scope) (row : OutgoingTransaction)
    (reason code : String) : ServiceTx BroadcastOutcome := do
  match ← query (·.outgoing.find? row.transferId) with
  | none => return .skipped
  | some record =>
    if record.status = .confirmed then return .skipped
    else
      let failed := { record.failedFor (cutReason reason) with nextAttemptAt := none }
      announceFailure scope failed false (cutReason reason) code
        (failureKey failed code)
      return .failed

/-- The UPDATE after an attempt which can be repeated; it tests no status. -/
def scheduleRetry (now : Nat) (row : OutgoingTransaction) (reason : String) :
    ServiceTx BroadcastOutcome := do
  match ← query (·.outgoing.find? row.transferId) with
  | none => return .retry
  | some record =>
    let _ ← orRaise (bindString (cutReason reason))
    saveOutgoing { record with
      status := .pending
      failureReason := some (cutReason reason)
      nextAttemptAt := some (now + leaseSeconds row.attempts) }
    return .retry

def broadcastedPayload (record : OutgoingTransaction) (txHash : ChainHash) :
    Except Failure Payload :=
  match getAsset record.asset.val with
  | none => .error (.keyError record.asset.val)
  | some asset => .ok [
      ("transfer_id", .str record.transferId.str),
      ("tx_hash", .str txHash.val),
      ("network", .str record.network.val),
      ("asset", .str record.asset.val),
      ("amount", .str (formatAmount record.amount asset.decimals)),
      ("amount_units", .str (toString (record.amount : Int))),
      ("from_address", .str record.fromAddress.val),
      ("to_address", .str record.toAddress.val),
      ("attempts", .int record.attempts)]

def OutgoingTransaction.broadcastedAs (record : OutgoingTransaction) (now : Nat)
    (txHash : ChainHash) : OutgoingTransaction :=
  { record with
    txHash := some txHash
    status := .broadcasted
    broadcastAt := some now
    failureReason := none
    nextAttemptAt := none }

def recordBroadcast (scope : Scope) (row : OutgoingTransaction)
    (txHash : ChainHash) : ServiceTx BroadcastOutcome := do
  match ← query (·.outgoing.find? row.transferId) with
  | none => return .skipped
  | some record =>
    if record.status = .confirmed ∨ record.status = .failed then return .skipped
    else if ← query fun db => db.outgoing.rows.any fun other =>
        other.transferId ≠ record.transferId && other.txHash = some txHash then
      throw (.integrity .outgoingTransactionsTxHashKey)
    else
      let payload ← orRaise (broadcastedPayload record txHash)
      saveOutgoing (record.broadcastedAs scope.now txHash)
      enqueue (newEvent scope .txBroadcasted payload producer
        (some (record.transferId.str ++ ":" ++ txHash.val ++ ":broadcast"))
        (row.correlationId.map Subtype.val))
      return .broadcast

def OutgoingTransaction.sendRequest (row : OutgoingTransaction) : SendRequest where
  fromAddress := row.fromAddress.val
  toAddress := row.toAddress.val
  amount := row.amount
  clientRef := row.transferId.str

/-- What is written after the node answered. -/
def broadcastTx (settings : Settings) (scope : Scope) (row : OutgoingTransaction) :
    Except ChainError ChainHash → ServiceTx BroadcastOutcome
  | .ok txHash => recordBroadcast scope row txHash
  | .error (.transactionRejected message) =>
    recordFailure scope row message "REJECTED_BY_NODE"
  | .error error =>
    if row.attempts < settings.broadcastMaxAttempts then
      scheduleRetry scope.now row error.message
    else
      let code :=
        match error with
        | .rpcUnavailable _ => "RPC_UNAVAILABLE"
        | _ => "BROADCAST_FAILED"
      recordFailure scope row error.message code

/-- `_broadcast_one`; `none` if the database raised. -/
def broadcastOne (adapter : ChainAdapter σ) (settings : Settings) (scope : Scope)
    (row : OutgoingTransaction) (state : σ × Db) : Option BroadcastOutcome × σ × Db :=
  let bound := correlationScope scope (row.correlationId.map Subtype.val)
  let (answer, chain') := adapter.sendTransfer row.sendRequest state.1
  let (result, db') := commit (broadcastTx settings bound row answer) state.2
  (result.toOption, chain', db')

/-- The loop over the claimed rows, which an exception ends. -/
def broadcastAll (adapter : ChainAdapter σ) (settings : Settings) (scope : Scope) :
    List OutgoingTransaction → σ × Db → RunEnd × σ × Db :=
  visitAll (broadcastOne adapter settings scope)

/-- `BroadcastWorker.run_once`. -/
def broadcastOnce (adapter : ChainAdapter σ) (settings : Settings) (scope : Scope)
    (limit : Nat) (chain : σ) (db : Db) : RunEnd × σ × Db :=
  let (claimed, db') := claimDue scope.now limit db
  broadcastAll adapter settings scope claimed (chain, db')

/-! ## The watcher -/

def OutgoingTransaction.candidate (settings : Settings) (head : Nat)
    (record : OutgoingTransaction) : Bool :=
  (record.status = .broadcasted || record.status = .confirmed) &&
    match record.blockNumber with
    | none => true
    | some blockNumber => head < blockNumber + settings.finalityDepth

def candidates (settings : Settings) (head : Nat) (db : Db) : List Uuid :=
  (db.outgoing.select (·.candidate settings head)).map (·.transferId)

inductive CheckOutcome where
  | skipped
  | checked
  | requeued
  | confirmed
  | failed
  | reorged
  deriving DecidableEq

/-- What the watcher read of a record before it asked for the receipt. -/
structure SeenRecord where
  txHash : ChainHash
  status : TxStatus
  broadcastAt : Option Nat
  attempts : Nat
  deriving DecidableEq

def OutgoingTransaction.seen (record : OutgoingTransaction) : Option SeenRecord :=
  record.txHash.map fun txHash =>
    ⟨txHash, record.status, record.broadcastAt, record.attempts⟩

/-- No receipt yet: still normal, or stuck long enough to act. -/
def handleStuck (settings : Settings) (scope : Scope) (record : OutgoingTransaction)
    (seen : SeenRecord) : ServiceTx CheckOutcome := do
  match seen.broadcastAt with
  | none => return .checked
  | some broadcastAt =>
    let age : Int := scope.now - broadcastAt
    if age < settings.pendingTimeoutSeconds then return .checked
    else if seen.attempts < settings.broadcastMaxAttempts then
      saveOutgoing { record with status := .pending, nextAttemptAt := some scope.now }
      return .requeued
    else
      let reason := "still pending after " ++ toString age ++ "s and " ++
        toString seen.attempts ++ " attempts"
      let failed := record.failedFor reason
      announceFailure scope failed false reason "STUCK_PENDING"
        (failureKey failed "STUCK_PENDING")
      return .failed

def reorgReason : String := "transaction disappeared from the chain (reorg)"

def markOutgoingReorged (scope : Scope) (record : OutgoingTransaction) :
    ServiceTx CheckOutcome := do
  let reorged : OutgoingTransaction :=
    { record with status := .reorged, failureReason := some reorgReason }
  let blockHash :=
    match record.blockHash with
    | none => "None"
    | some hash => hash.val
  announceFailure scope reorged true reorgReason "CHAIN_REORG"
    (failureKey record "CHAIN_REORG" ++ ":" ++ blockHash)
  return .reorged

def confirmedPayload (record : OutgoingTransaction) (txHash : ChainHash)
    (receipt : TxReceipt) : Except Failure Payload :=
  match getAsset record.asset.val with
  | none => .error (.keyError record.asset.val)
  | some asset => .ok [
      ("transfer_id", .str record.transferId.str),
      ("tx_hash", .str txHash.val),
      ("network", .str record.network.val),
      ("asset", .str record.asset.val),
      ("amount", .str (formatAmount record.amount asset.decimals)),
      ("amount_units", .str (toString (record.amount : Int))),
      ("from_address", .str record.fromAddress.val),
      ("to_address", .str record.toAddress.val),
      ("block_number", .int receipt.blockNumber),
      ("block_hash", .str receipt.blockHash.val),
      ("confirmations", .int record.confirmations)]

def OutgoingTransaction.minedIn (record : OutgoingTransaction) (head : Nat)
    (receipt : TxReceipt) : OutgoingTransaction :=
  { record with
    blockNumber := some receipt.blockNumber
    blockHash := some receipt.blockHash
    confirmations := head + 1 - receipt.blockNumber }

def revertReason : String := "transaction reverted on chain"

/-- A receipt was found. -/
def handleReceipt (settings : Settings) (scope : Scope) (head : Nat)
    (record : OutgoingTransaction) (txHash : ChainHash) (receipt : TxReceipt) :
    ServiceTx CheckOutcome := do
  let mined := record.minedIn head receipt
  if receipt.status = 0 then
    if mined.status = .failed then
      saveOutgoing mined
      return .skipped
    else
      let failed := mined.failedFor revertReason
      announceFailure scope failed false revertReason "REVERTED_ON_CHAIN"
        (failureKey failed "REVERTED_ON_CHAIN")
      return .failed
  else if mined.status = .broadcasted ∧
      settings.confirmationsRequired ≤ mined.confirmations then
    let confirmed := { mined with status := .confirmed }
    let payload ← orRaise (confirmedPayload confirmed txHash receipt)
    saveOutgoing confirmed
    enqueue (newEvent scope .txConfirmed payload producer
      (some (record.transferId.str ++ ":" ++ txHash.val ++ ":confirmed"))
      (record.correlationId.map Subtype.val))
    return .confirmed
  else
    saveOutgoing mined
    return .checked

/-- The transaction of `_check_one`, given what was read before it. -/
def checkTx (settings : Settings) (scope : Scope) (head : Nat) (transferId : Uuid)
    (seen : SeenRecord) (receipt : Option TxReceipt) : ServiceTx CheckOutcome := do
  match ← query (·.outgoing.find? transferId) with
  | none => return .skipped
  | some record =>
    let bound := correlationScope scope (record.correlationId.map Subtype.val)
    match receipt with
    | some receipt => handleReceipt settings bound head record seen.txHash receipt
    | none =>
      if seen.status = .confirmed then markOutgoingReorged bound record
      else handleStuck settings bound record seen

/-- `_check_one`; `none` if it raised. -/
def checkOne (adapter : ChainAdapter σ) (settings : Settings) (scope : Scope)
    (receiptCall : σ) (head : Nat) (transferId : Uuid) (db : Db) :
    Option CheckOutcome × Db :=
  match (db.outgoing.find? transferId).bind OutgoingTransaction.seen with
  | none => (some .skipped, db)
  | some seen =>
    match adapter.getReceipt receiptCall seen.txHash with
    | .error _ => (none, db)
    | .ok receipt =>
      let (result, db') :=
        commit (checkTx settings scope head transferId seen receipt) db
      (result.toOption, db')

def checkAll (adapter : ChainAdapter σ) (settings : Settings) (scope : Scope)
    (calls : Uuid → σ) (head : Nat) : List Uuid → Db → RunEnd × Db :=
  visitAll fun transferId =>
    checkOne adapter settings scope (calls transferId) head transferId

/-- `OutgoingTransactionWatcher.run_once`; each call meets a chain of its own. -/
def watchOutgoingOnce (adapter : ChainAdapter σ) (settings : Settings)
    (scope : Scope) (headCall : σ) (calls : Uuid → σ) (db : Db) : RunEnd × Db :=
  match adapter.getBlockNumber headCall with
  | .error (.rpcUnavailable _) => (.completed, db)
  | .error _ => (.raised, db)
  | .ok head =>
    checkAll adapter settings scope calls head (candidates settings head db) db

end CryptoWallet.Blockchain
