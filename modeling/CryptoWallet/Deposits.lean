import CryptoWallet.BlockchainSchema
import Mathlib.Data.List.Sort

/-!
# Deposit detection and confirmation tracking

The scanner walks the chain behind a persisted cursor and turns the transfer
logs to addresses in custody into deposits.  The watcher looks at every
deposit which is not final again: it follows a transaction which moved to
another block, confirms a deposit which is deep enough, and marks one which
disappeared.

Both read the chain first and write afterwards in one transaction, so each is
a function of what it read followed by a transaction.  The chain may move
between two calls of one run, and every call is given the state it meets.
-/

namespace CryptoWallet.Blockchain

open Tx

variable {σ : Type}

/-! ## Addresses -/

/-- `get_or_create_address`; `generated` is what the keystore will draw. -/
def getOrCreateAddress (ownerRef network generated : String) :
    ServiceTx (Address × Bool) := do
  match ← query (·.addresses.find? ownerRef) with
  | some existing => return (existing, false)
  | none =>
    let address : Address := {
      ownerRef := ← orRaise (varchar 128 ownerRef)
      network := ← orRaise (varchar 32 network)
      address := ← orRaise (varchar 64 generated)
      status := .active }
    if ← query fun db => db.addresses.rows.any (·.address = address.address) then
      throw (.integrity .addressesAddressKey)
    else
      modifyDb fun db => { db with
        addresses := (db.addresses.insert? address).getD db.addresses }
      return (address, true)

def activeAddresses (db : Db) : List String :=
  (db.addresses.select (·.status = .active)).map (·.address.val)

/-! ## Events about deposits -/

def depositPayload (d : Deposit) (confirmations : Nat) : Except Failure Payload :=
  match getAsset d.asset.val with
  | none => .error (.keyError d.asset.val)
  | some asset => .ok [
      ("deposit_id", .str d.id.str),
      ("network", .str d.network.val),
      ("asset", .str d.asset.val),
      ("tx_hash", .str d.txHash.val),
      ("log_index", .int d.logIndex),
      ("from_address", .str d.fromAddress.val),
      ("to_address", .str d.toAddress.val),
      ("amount", .str (formatAmount d.amount asset.decimals)),
      ("amount_units", .str (toString (d.amount : Int))),
      ("decimals", .int asset.decimals),
      ("block_number", .int d.blockNumber),
      ("block_hash", .str d.blockHash.val),
      ("confirmations", .int confirmations)]

def reorgedPayload (payload : Payload) (wasConfirmed : Bool)
    (orphanedBlockHash : ChainHash) : Payload :=
  payload ++ [("was_confirmed", .bool wasConfirmed),
    ("orphaned_block_hash", .str orphanedBlockHash.val)]

/-- `dep-` and the digits 2 to 13 of the transaction hash. -/
def depositCorrelation (txHash : ChainHash) : String :=
  "dep-" ++ String.ofList ((txHash.val.toList.drop 2).take 12)

def depositEvent (scope : Scope) (eventType : EventType) (payload : Payload)
    (txHash : ChainHash) (dedupeKey : String) : Envelope :=
  newEvent scope eventType payload producer (some dedupeKey)
    (some (depositCorrelation txHash))

/-! ## The scanner -/

/-- The row the INSERT proposes, tested against types and constraints. -/
def proposedDeposit (newId : Uuid) (entry : TransferLog) : Except Failure Deposit := do
  let network ← varchar 32 entry.network
  let asset ← varchar 16 entry.asset
  let toAddress ← varchar 64 entry.toAddress
  let fromAddress ← varchar 64 entry.fromAddress
  if hfits : entry.logIndex < 2 ^ 31 ∧ entry.amount < 10 ^ 78 then
    if hpositive : 0 < entry.amount then
      .ok {
        id := newId
        network, asset
        txHash := entry.txHash
        logIndex := entry.logIndex
        toAddress, fromAddress
        amount := entry.amount
        blockNumber := entry.blockNumber
        blockHash := entry.blockHash
        confirmations := 0
        status := .detected
        confirmedAt := none
        reorgedAt := none
        amountPositive := hpositive
        amountFits := hfits.2
        logIndexFits := hfits.1 }
    else .error (.integrity .ckDepositAmountPositive)
  else .error .dataError

/-- The columns the conflict clause sets; the others keep their values. -/
def Deposit.revived (d : Deposit) (entry : TransferLog) : Deposit :=
  { d with
    blockNumber := entry.blockNumber
    blockHash := entry.blockHash
    status := .detected
    confirmations := 0
    confirmedAt := none
    reorgedAt := none }

def detectDeposit (scope : Scope) (entry : TransferLog) (d : Deposit) :
    ServiceTx Unit := do
  let payload ← orRaise (depositPayload d 0)
  enqueue (depositEvent scope .depositDetected payload entry.txHash
    (DepositId.inBlock entry.identity entry.blockHash))

/-- Insert a new deposit, or revive one that a reorg had knocked out. -/
def upsertDeposit (scope : Scope) (newId : Uuid) (entry : TransferLog) :
    ServiceTx Bool := do
  let proposed ← orRaise (proposedDeposit newId entry)
  match ← query (·.deposits.find? proposed.identity) with
  | none =>
    modifyDb fun db => { db with
      deposits := (db.deposits.insert? proposed).getD db.deposits }
    detectDeposit scope entry proposed
    return true
  | some stored =>
    if stored.status = .reorged then
      modifyDb fun db => { db with
        deposits := db.deposits.replace (stored.revived entry) }
      detectDeposit scope entry (stored.revived entry)
      return true
    else return false

structure ScanPlan where
  toBlock : Nat
  logs : List TransferLog
  tipHash : Option ChainHash

/-- The chain at each call of one run of the scanner. -/
structure ScanCalls (σ : Type) where
  head : σ
  cursor : σ
  logs : σ
  tip : σ

/-- All calls of the run meet the same chain. -/
def ScanCalls.fixed (chain : σ) : ScanCalls σ := ⟨chain, chain, chain, chain⟩

/-- Where the scan continues: at the cursor, or behind it if the chain moved
under it. -/
def scanCursor (adapter : ChainAdapter σ) (settings : Settings) (chain : σ)
    (state : Option ScanState) : Except ChainError Nat := do
  match state with
  | none => return 0
  | some state =>
    match state.lastScannedHash with
    | none => return state.lastScannedBlock
    | some lastHash =>
      let currentHash ← adapter.getBlockHash chain state.lastScannedBlock
      if currentHash = some lastHash then return state.lastScannedBlock
      else return state.lastScannedBlock - settings.reorgSafetyBlocks

/-- Transfers between two addresses in custody are no deposits. -/
def externalLogs (settings : Settings) (watched : List String)
    (logs : List TransferLog) : List TransferLog :=
  let ours := watched.map settings.letterCase.lower
  logs.filter fun entry => settings.letterCase.lower entry.fromAddress ∉ ours

/-- The logs of the range which the scanner asks for. -/
def fetchLogs (adapter : ChainAdapter σ) (chain : σ) (fromBlock toBlock : Nat)
    (watched : List String) : Except ChainError (List TransferLog) :=
  if watched = [] then .ok []
  else adapter.getTransferLogs chain fromBlock toBlock watched

/-- What `DepositScanner.run_once` reads; `none` if there is nothing to scan. -/
def scanPlan (adapter : ChainAdapter σ) (settings : Settings) (calls : ScanCalls σ)
    (db : Db) : Except ChainError (Option ScanPlan) := do
  let head ← adapter.getBlockNumber calls.head
  if head = 0 then return none
  else
    let cursor ← scanCursor adapter settings calls.cursor
      (db.scanState.find? settings.network)
    let fromBlock := cursor + 1
    let toBlock := min head (fromBlock + settings.scanBatchBlocks - 1)
    if toBlock < fromBlock then return none
    else
      let watched := activeAddresses db
      let logs ← fetchLogs adapter calls.logs fromBlock toBlock watched
      let tipHash ← adapter.getBlockHash calls.tip toBlock
      return some ⟨toBlock, externalLogs settings watched logs, tipHash⟩

def upsertDeposits (scope : Scope) (newId : TransferLog → Uuid) :
    List TransferLog → ServiceTx Nat
  | [] => return 0
  | entry :: rest => do
    let detected ← upsertDeposit scope (newId entry) entry
    let more ← upsertDeposits scope newId rest
    return if detected then more + 1 else more

/-- Deposits, their events and the cursor advance commit together. -/
def scanTx (settings : Settings) (scope : Scope) (newId : TransferLog → Uuid)
    (plan : ScanPlan) : ServiceTx Nat := do
  let detected ← upsertDeposits scope newId plan.logs
  let state : ScanState := ⟨settings.network, plan.toBlock, plan.tipHash⟩
  modifyDb fun db => { db with
    scanState := (db.scanState.insert? state).getD (db.scanState.replace state) }
  return detected

/-- `DepositScanner.run_once`. -/
def scanOnce (adapter : ChainAdapter σ) (settings : Settings) (scope : Scope)
    (newId : TransferLog → Uuid) (calls : ScanCalls σ) (db : Db) : RunEnd × Db :=
  match scanPlan adapter settings calls db with
  | .error _ => (.raised, db)
  | .ok none => (.completed, db)
  | .ok (some plan) =>
    match commit (scanTx settings scope newId plan) db with
    | (.ok _, db') => (.completed, db')
    | (.error _, db') => (.raised, db')

/-! ## The confirmation watcher -/

def Deposit.watched (settings : Settings) (head : Nat) (d : Deposit) : Bool :=
  d.status ≠ .reorged && head < d.blockNumber + settings.finalityDepth

def watchlist (settings : Settings) (head : Nat) (db : Db) : List DepositId :=
  ((db.deposits.select (·.watched settings head)).insertionSort
    fun d d' => d.blockNumber ≤ d'.blockNumber).map Deposit.identity

/-- The chain at the calls which look one deposit up. -/
structure LookupCalls (σ : Type) where
  receipt : σ
  logs : σ

def LookupCalls.fixed (chain : σ) : LookupCalls σ := ⟨chain, chain⟩

/-- Where the deposit's log is now, as number and hash of its block. -/
def locate (adapter : ChainAdapter σ) (calls : LookupCalls σ) (d : Deposit) :
    Except ChainError (Option (Nat × ChainHash)) := do
  match ← adapter.getReceipt calls.receipt d.txHash with
  | none => return none
  | some receipt =>
    if receipt.blockHash = d.blockHash then
      return some (receipt.blockNumber, receipt.blockHash)
    else
      let entries ← adapter.getTransferLogs calls.logs receipt.blockNumber
        receipt.blockNumber [d.toAddress.val]
      let found := entries.find? fun entry =>
        entry.txHash = d.txHash && entry.logIndex = d.logIndex
      return found.map fun entry => (entry.blockNumber, entry.blockHash)

inductive Verdict where
  | gone
  | checked
  | confirmed
  | reorged
  deriving DecidableEq

def saveDeposit (d : Deposit) : ServiceTx Unit :=
  modifyDb fun db => { db with deposits := db.deposits.replace d }

def Deposit.reorgedAtTime (d : Deposit) (now : Nat) : Deposit :=
  { d with status := .reorged, reorgedAt := some now }

def markReorged (scope : Scope) (d : Deposit) : ServiceTx Verdict := do
  let wasConfirmed : Bool := d.status = .confirmed
  let reorged := d.reorgedAtTime scope.now
  let payload ← orRaise (depositPayload reorged reorged.confirmations)
  saveDeposit reorged
  enqueue (depositEvent scope .depositReorged
    (reorgedPayload payload wasConfirmed d.blockHash) d.txHash
    (DepositId.inBlock d.identity d.blockHash ++ ":reorg"))
  return .reorged

def Deposit.movedTo (d : Deposit) (head blockNumber : Nat) (blockHash : ChainHash) :
    Deposit :=
  { d with blockNumber, blockHash, confirmations := head + 1 - blockNumber }

def Deposit.confirmedAtTime (d : Deposit) (now : Nat) : Deposit :=
  { d with status := .confirmed, confirmedAt := some now }

def confirmDeposit (scope : Scope) (d : Deposit) : ServiceTx Verdict := do
  let confirmed := d.confirmedAtTime scope.now
  let payload ← orRaise (depositPayload confirmed confirmed.confirmations)
  saveDeposit confirmed
  enqueue (depositEvent scope .depositConfirmed payload d.txHash
    (DepositId.inBlock d.identity d.blockHash))
  return .confirmed

/-- The transaction of `_reverify`, given where the log was found. -/
def reverifyTx (settings : Settings) (scope : Scope) (head : Nat)
    (found : Option (Nat × ChainHash)) (id : DepositId) : ServiceTx Verdict := do
  match ← query (·.deposits.find? id) with
  | none => return .gone
  | some d =>
    match found with
    | none => markReorged scope d
    | some (blockNumber, blockHash) =>
      let moved := d.movedTo head blockNumber blockHash
      if moved.status = .detected ∧
          settings.confirmationsRequired ≤ moved.confirmations then
        confirmDeposit scope moved
      else
        saveDeposit moved
        return .checked

/-- `_reverify`; `none` if it raised. -/
def reverify (adapter : ChainAdapter σ) (settings : Settings) (scope : Scope)
    (calls : LookupCalls σ) (head : Nat) (id : DepositId) (db : Db) :
    Option Verdict × Db :=
  match db.deposits.find? id with
  | none => (some .gone, db)
  | some d =>
    match locate adapter calls d with
    | .error _ => (none, db)
    | .ok found =>
      let (result, db') := commit (reverifyTx settings scope head found id) db
      (result.toOption, db')

/-- The loop of the watcher, which an exception ends. -/
def reverifyAll (adapter : ChainAdapter σ) (settings : Settings) (scope : Scope)
    (calls : DepositId → LookupCalls σ) (head : Nat) :
    List DepositId → Db → RunEnd × Db :=
  visitAll fun id => reverify adapter settings scope (calls id) head id

/-- `DepositConfirmationWatcher.run_once`; a deposit is on its list once. -/
def watchDepositsOnce (adapter : ChainAdapter σ) (settings : Settings)
    (scope : Scope) (headCall : σ) (calls : DepositId → LookupCalls σ) (db : Db) :
    RunEnd × Db :=
  match adapter.getBlockNumber headCall with
  | .error (.rpcUnavailable _) => (.completed, db)
  | .error _ => (.raised, db)
  | .ok head =>
    if head = 0 then (.completed, db)
    else reverifyAll adapter settings scope calls head (watchlist settings head db) db

end CryptoWallet.Blockchain
