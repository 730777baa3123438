import CryptoWallet.ChainPort
import CryptoWallet.Events
import CryptoWallet.Money
import CryptoWallet.Transaction
import CryptoWallet.Worklist

/-!
# The database of the blockchain service

Addresses in custody, the deposits seen on the chain, one outgoing transaction
for each transfer, the cursor of the scanner, and the two tables of the event
exchange.  Rows are addressed by their natural keys; the random primary key of
a deposit is kept because its events carry it.
-/

namespace CryptoWallet.Blockchain

inductive AddressStatus where
  | active
  | inactive
  deriving DecidableEq

structure Address where
  ownerRef : Varchar 128
  network : Varchar 32
  address : Varchar 64
  status : AddressStatus
  deriving DecidableEq

def Address.owner (a : Address) : String := a.ownerRef.val

inductive DepositStatus where
  | detected
  | confirmed
  | reorged
  deriving DecidableEq

structure Deposit where
  id : Uuid
  network : Varchar 32
  asset : Varchar 16
  txHash : ChainHash
  logIndex : Nat
  toAddress : Varchar 64
  fromAddress : Varchar 64
  amount : Nat
  blockNumber : Nat
  blockHash : ChainHash
  confirmations : Nat
  status : DepositStatus
  confirmedAt : Option Nat
  reorgedAt : Option Nat
  amountPositive : 0 < amount
  amountFits : amount < 10 ^ 78
  logIndexFits : logIndex < 2 ^ 31
  deriving DecidableEq

def Deposit.identity (d : Deposit) : DepositId :=
  (d.network.val, d.txHash, d.logIndex)

inductive TxStatus where
  | created
  | pending
  | broadcasted
  | confirmed
  | failed
  | reorged
  deriving DecidableEq

structure OutgoingTransaction where
  transferId : Uuid
  network : Varchar 32
  asset : Varchar 16
  fromAddress : Varchar 64
  toAddress : Varchar 64
  amount : Nat
  txHash : Option ChainHash
  nonce : Option Nat
  status : TxStatus
  blockNumber : Option Nat
  blockHash : Option ChainHash
  confirmations : Nat
  failureReason : Option String
  attempts : Nat
  nextAttemptAt : Option Nat
  broadcastAt : Option Nat
  correlationId : Option (Varchar 64)
  createdAt : Nat
  amountPositive : 0 < amount
  amountFits : amount < 10 ^ 78
  deriving DecidableEq

structure ScanState where
  network : String
  lastScannedBlock : Nat
  lastScannedHash : Option ChainHash
  deriving DecidableEq

structure Db where
  addresses : Table String Address Address.owner
  deposits : Table DepositId Deposit Deposit.identity
  outgoing : Table Uuid OutgoingTransaction OutgoingTransaction.transferId
  scanState : Table String ScanState ScanState.network
  outbox : Outbox
  processedEvents : ProcessedEvents
  deriving DecidableEq

def Db.empty : Db := ⟨.empty, .empty, .empty, .empty, .empty, .empty⟩

/-- Transactions of the service; the locks of its rows are not followed. -/
abbrev ServiceTx (α : Type) := Tx Db Empty Failure α

structure Settings where
  letterCase : LetterCase
  network : String
  confirmationsRequired : Nat
  finalityDepth : Nat
  scanBatchBlocks : Nat
  reorgSafetyBlocks : Nat
  broadcastMaxAttempts : Nat
  pendingTimeoutSeconds : Nat

/-- The defaults of `config.py`. -/
def Settings.standard : Settings where
  letterCase := .ascii
  network := "BSC"
  confirmationsRequired := 3
  finalityDepth := 15
  scanBatchBlocks := 200
  reorgSafetyBlocks := 20
  broadcastMaxAttempts := 5
  pendingTimeoutSeconds := 120

def producer : String := "blockchain-service"

def enqueue (envelope : Envelope) : ServiceTx Unit := do
  let outbox ← Tx.query (·.outbox)
  let outbox' ← Tx.orRaise (enqueueEvent outbox envelope)
  Tx.modifyDb fun db => { db with outbox := outbox' }

/-- `correlation_scope(correlation_id)`. -/
def correlationScope (scope : Scope) (correlationId : Option String) : Scope :=
  { scope with
    correlationId :=
      match correlationId.filter (· ≠ "") with
      | some id => some id
      | none => some scope.freshCorrelationId }

end CryptoWallet.Blockchain
