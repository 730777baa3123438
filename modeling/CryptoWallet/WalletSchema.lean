import CryptoWallet.Events
import CryptoWallet.Money
import CryptoWallet.Transaction

/-!
# The wallet database

One record per table.  What a column type or a CHECK constraint guarantees of a
single row is a field of the record, so a row which the database would reject
cannot be written down: an overdrawn balance, a zero ledger entry, a transfer
to oneself.

The four sums at the end are what the invariants of the service compare: the
two columns of a balance, the ledger entries of an account, and the open
transfers from it.
-/

namespace CryptoWallet.Wallet

inductive AccountStatus where
  | active
  | inactive
  deriving DecidableEq

inductive EntryType where
  | deposit
  | transferDebit
  | transferCredit
  | fee
  | reversal
  deriving DecidableEq

inductive ReferenceType where
  | deposit
  | transfer
  deriving DecidableEq

inductive TransferStatus where
  | created
  | processing
  | broadcasted
  | confirmed
  | failed
  deriving DecidableEq

namespace TransferStatus

def isOpen : TransferStatus → Bool
  | created | processing | broadcasted => true
  | confirmed | failed => false

def name : TransferStatus → String
  | created => "CREATED"
  | processing => "PROCESSING"
  | broadcasted => "BROADCASTED"
  | confirmed => "CONFIRMED"
  | failed => "FAILED"

/-- The position in the life of a transfer. -/
def rank : TransferStatus → Nat
  | created => 0
  | processing => 1
  | broadcasted => 2
  | confirmed => 3
  | failed => 4

end TransferStatus

structure User where
  id : Int
  name : String
  email : String
  status : AccountStatus
  deriving DecidableEq

structure WalletRow where
  id : Uuid
  userId : Int
  network : String
  asset : String
  address : String
  status : AccountStatus
  deriving DecidableEq

def WalletRow.key (w : WalletRow) : Int × String × String :=
  (w.userId, w.network, w.asset)

/-- The key of a balance: user id and asset. -/
abbrev Account := Int × String

structure Balance where
  userId : Int
  asset : String
  posted : Int
  reserved : Int
  version : Nat
  assetFits : asset.length ≤ 16
  reservedNonNegative : 0 ≤ reserved
  availableNonNegative : 0 ≤ posted - reserved
  deriving DecidableEq

def Balance.account (b : Balance) : Account := (b.userId, b.asset)

structure LedgerEntry where
  userId : Int
  asset : String
  amount : Int
  entryType : EntryType
  referenceType : ReferenceType
  referenceId : String
  correlationId : Option String
  amountNonZero : amount ≠ 0
  deriving DecidableEq

def LedgerEntry.account (e : LedgerEntry) : Account := (e.userId, e.asset)

abbrev EntryKey := Int × EntryType × ReferenceType × String

/-- The columns of `uq_ledger_idempotency`. -/
def LedgerEntry.key (e : LedgerEntry) : EntryKey :=
  (e.userId, e.entryType, e.referenceType, e.referenceId)

structure Transfer where
  id : Uuid
  idempotencyKey : String
  fromUserId : Int
  toUserId : Int
  asset : String
  network : String
  amount : Int
  fromAddress : String
  toAddress : String
  status : TransferStatus
  txHash : Option String
  failureCode : Option String
  failureReason : Option String
  correlationId : Option String
  createdAt : Nat
  updatedAt : Nat
  settledAt : Option Nat
  amountPositive : 0 < amount
  distinctParties : fromUserId ≠ toUserId
  deriving DecidableEq

namespace Transfer

def sender (t : Transfer) : Account := (t.fromUserId, t.asset)

def recipient (t : Transfer) : Account := (t.toUserId, t.asset)

def held (t : Transfer) (k : Account) : Int :=
  if t.status.isOpen ∧ t.sender = k then t.amount else 0

end Transfer

structure TransferResponse where
  id : String
  idempotencyKey : String
  fromUserId : Int
  toUserId : Int
  asset : String
  network : String
  amount : String
  status : String
  txHash : Option String
  failureCode : Option String
  failureReason : Option String
  correlationId : Option String
  createdAt : Nat
  updatedAt : Nat
  settledAt : Option Nat
  deriving DecidableEq

structure IdempotencyKey where
  scope : String
  key : String
  requestHash : String
  responseStatus : Nat
  responseBody : Option TransferResponse
  resourceId : Option String
  deriving DecidableEq

def IdempotencyKey.primaryKey (row : IdempotencyKey) : String × String :=
  (row.scope, row.key)

abbrev Ledger := Table EntryKey LedgerEntry LedgerEntry.key

structure Db where
  users : Table Int User User.id
  wallets : Table (Int × String × String) WalletRow WalletRow.key
  balances : Table Account Balance Balance.account
  ledger : Ledger
  transfers : Table Uuid Transfer Transfer.id
  idempotencyKeys : Table (String × String) IdempotencyKey IdempotencyKey.primaryKey
  outbox : Outbox
  processedEvents : ProcessedEvents
  deriving DecidableEq

def Db.empty : Db :=
  ⟨.empty, .empty, .empty, .empty, .empty, .empty, .empty, .empty⟩

/-- The rows a statement may lock until the end of its transaction. -/
inductive RowLock where
  | transfer (id : Uuid)
  | balance (account : Account)
  deriving DecidableEq

abbrev WalletTx (α : Type) := Tx Db RowLock Failure α

/-! ## Sums over the tables -/

namespace Db

def hasRow (db : Db) (k : Account) : Prop :=
  ∃ b, db.balances.find? k = some b

def postedOf (db : Db) (k : Account) : Int :=
  match db.balances.find? k with
  | some b => b.posted
  | none => 0

def reservedOf (db : Db) (k : Account) : Int :=
  match db.balances.find? k with
  | some b => b.reserved
  | none => 0

def availableOf (db : Db) (k : Account) : Int :=
  db.postedOf k - db.reservedOf k

def ledgerSum (db : Db) (k : Account) : Int :=
  db.ledger.total fun e => if e.account = k then e.amount else 0

/-- What the open transfers from an account hold. -/
def openSum (db : Db) (k : Account) : Int :=
  db.transfers.total fun t => t.held k

theorem postedOf_of_find {db : Db} {k : Account} {b : Balance}
    (h : db.balances.find? k = some b) : db.postedOf k = b.posted := by
  simp [postedOf, h]

theorem reservedOf_of_find {db : Db} {k : Account} {b : Balance}
    (h : db.balances.find? k = some b) : db.reservedOf k = b.reserved := by
  simp [reservedOf, h]

theorem availableOf_nonneg (db : Db) (k : Account) : 0 ≤ db.availableOf k := by
  unfold availableOf postedOf reservedOf
  cases db.balances.find? k with
  | none => simp
  | some b => exact b.availableNonNegative

end Db

theorem Transfer.held_nonneg (t : Transfer) (k : Account) : 0 ≤ t.held k := by
  unfold Transfer.held
  split
  · exact le_of_lt t.amountPositive
  · exact le_refl 0

/-- An open transfer is part of what its sender holds. -/
theorem Db.amount_le_openSum {db : Db} {t : Transfer}
    (ht : t ∈ db.transfers.rows) (hopen : t.status.isOpen = true) :
    t.amount ≤ db.openSum t.sender := by
  have hheld : t.held t.sender = t.amount := by simp [Transfer.held, hopen]
  rw [← hheld]
  exact db.transfers.le_total (fun row => row.held_nonneg t.sender) ht

end CryptoWallet.Wallet
