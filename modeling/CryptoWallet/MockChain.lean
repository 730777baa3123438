import CryptoWallet.BlockchainSchema
import Mathlib.Data.List.Sort

/-!
# The simulated chain

Blocks are keyed by hash; a reorg orphans the top blocks, returns their
transactions to the mempool or drops them, and mines a longer fork.  A
transaction is `pending` until a block takes it up, as `mined` or, with receipt
status 0, as `failed`.

Every control runs in a transaction of its own, except that a reorg is followed
by one transaction for each block of the new fork.
-/

namespace CryptoWallet.MockChain

/-- SHA-256 in hexadecimal. -/
structure Digest where
  hexdigest : String → String
  length : ∀ text, (hexdigest text).length = 64
  hexadecimal : ∀ text, ∀ c ∈ (hexdigest text).toList,
    c ∈ "0123456789abcdef".toList

theorem isHashChar_of_hex : ∀ c ∈ "0123456789abcdef".toList, isHashChar c = true :=
  List.all_eq_true.mp (by decide)

/-- A digest to compute with: the bytes as a number, reduced to 16 bits. -/
def Digest.residue : Digest where
  hexdigest text := String.ofList (Uuid.hexDigits 4
      (text.toByteArray.data.toList.foldl (fun n c => n * 257 + c.toNat) 0 % 65521)) ++
    "000000000000000000000000000000000000000000000000000000000000"
  length := by
    intro text
    rw [String.length_append, String.length_ofList, Uuid.hexDigits_length]
    decide
  hexadecimal := by
    intro text c hc
    have hdigits : ∀ digit < 16, Uuid.hexChar digit ∈ "0123456789abcdef".toList := by
      decide
    have hzeros : ("000000000000000000000000000000000000000000000000000000000000" :
        String).toList ⊆ "0123456789abcdef".toList := by
      decide
    rw [String.toList_append, String.toList_ofList, List.mem_append] at hc
    rcases hc with hc | hc
    · obtain ⟨digit, hdigit, rfl⟩ := Uuid.mem_hexDigits hc
      exact hdigits digit hdigit
    · exact hzeros hc

/-- `_hash`. -/
def hash (digest : Digest) (parts : List String) : ChainHash :=
  ⟨"0x" ++ digest.hexdigest ("|".intercalate parts), by
    refine ⟨?_, ?_, ?_⟩
    · intro hempty
      have hlength := congrArg String.length hempty
      simp [String.length_append, digest.length] at hlength
    · rw [String.length_append, digest.length]
      decide
    · intro c hc
      rw [String.toList_append, List.mem_append] at hc
      rcases hc with hc | hc
      · exact List.all_eq_true.mp (by decide) c hc
      · exact isHashChar_of_hex c (digest.hexadecimal _ c hc)⟩

/-- The network fits the columns of the service. -/
structure Config where
  digest : Digest
  letterCase : LetterCase
  network : Varchar 32
  asset : String

/-- The default configuration, over the digest to compute with. -/
def Config.bsc : Config where
  digest := .residue
  letterCase := .ascii
  network := ⟨"BSC", by decide, by decide⟩
  asset := "USDT"

inductive MockTxStatus where
  | pending
  | mined
  | failed
  | dropped
  deriving DecidableEq

structure MockBlock where
  hash : ChainHash
  number : Nat
  parentHash : ChainHash
  isCanonical : Bool
  deriving DecidableEq

structure MockTx where
  hash : ChainHash
  fromAddress : Varchar 64
  toAddress : Varchar 64
  amount : Nat
  asset : String
  status : MockTxStatus
  blockNumber : Option Nat
  blockHash : Option ChainHash
  logIndex : Option Nat
  isMint : Bool
  failOnMine : Bool
  createdAt : Nat
  deriving DecidableEq

structure MockBalance where
  address : String
  amount : Int
  deriving DecidableEq

structure MockFaults where
  rpcAvailable : Bool
  haltMining : Bool
  failNextTransfers : Nat
  deriving DecidableEq

/-- The tables of the node and the clock of its database. -/
structure State where
  blocks : Table ChainHash MockBlock MockBlock.hash
  transactions : Table ChainHash MockTx MockTx.hash
  balances : Table String MockBalance MockBalance.address
  faults : MockFaults
  clock : Nat
  deriving DecidableEq

def State.empty : State :=
  ⟨.empty, .empty, .empty, ⟨true, false, 0⟩, 0⟩

def genesisNumber : Nat := 1

def maxTxsPerBlock : Nat := 50

def externalSourceAddress : String := "0x1111111111111111111111111111111111111111"

def zeroHash : ChainHash :=
  .literal "0x0000000000000000000000000000000000000000000000000000000000000000" (by decide)

/-- Create the genesis block if there is no block. -/
def ensureStarted (config : Config) (s : State) : State :=
  if s.blocks.rows = [] then
    let genesis : MockBlock :=
      ⟨hash config.digest ["genesis", config.network.val], genesisNumber, zeroHash, true⟩
    { s with blocks := (s.blocks.insert? genesis).getD s.blocks }
  else s

/-! ## The read side -/

def assertRpcUp (s : State) : Except ChainError Unit :=
  if s.faults.rpcAvailable then .ok ()
  else .error (.rpcUnavailable "simulated RPC node is unreachable")

/-- The canonical block of the greatest height. -/
def head? (s : State) : Option MockBlock :=
  ((s.blocks.select (·.isCanonical)).insertionSort
    fun b b' => b'.number ≤ b.number).head?

def canonicalAt (s : State) (number : Nat) : Option MockBlock :=
  s.blocks.rows.find? fun b => b.number = number && b.isCanonical

/-- The canonical block a transaction points to. -/
def canonicalBlock (s : State) (tx : MockTx) : Option MockBlock :=
  (tx.blockHash.bind s.blocks.find?).filter (·.isCanonical)

def getBlockNumber (s : State) : Except ChainError Nat := do
  assertRpcUp s
  return ((head? s).map MockBlock.number).getD 0

def getBlockHash (s : State) (number : Nat) : Except ChainError (Option ChainHash) := do
  assertRpcUp s
  return (canonicalAt s number).map MockBlock.hash

/-- The log of a mined transaction in a canonical block of the range. -/
def transferLog (config : Config) (s : State) (fromBlock toBlock : Nat)
    (tx : MockTx) : Option TransferLog := do
  let number ← tx.blockNumber
  let block ← canonicalBlock s tx
  if tx.status = .mined ∧ fromBlock ≤ number ∧ number ≤ toBlock then
    some {
      network := config.network.val
      asset := tx.asset
      txHash := tx.hash
      logIndex := tx.logIndex.getD 0
      blockNumber := number
      blockHash := block.hash
      fromAddress := tx.fromAddress.val
      toAddress := tx.toAddress.val
      amount := tx.amount }
  else none

def logBefore (entry entry' : TransferLog) : Prop :=
  entry.blockNumber < entry'.blockNumber ∨
    (entry.blockNumber = entry'.blockNumber ∧ entry.logIndex ≤ entry'.logIndex)

instance : DecidableRel logBefore := fun entry entry' =>
  inferInstanceAs (Decidable (entry.blockNumber < entry'.blockNumber ∨
    (entry.blockNumber = entry'.blockNumber ∧ entry.logIndex ≤ entry'.logIndex)))

def getTransferLogs (config : Config) (s : State) (fromBlock toBlock : Nat)
    (addresses : List String) : Except ChainError (List TransferLog) := do
  if toBlock < fromBlock then return []
  else
    assertRpcUp s
    let lowered := addresses.map config.letterCase.lower
    let logs := s.transactions.rows.filterMap (transferLog config s fromBlock toBlock)
    let matching :=
      if addresses = [] then logs
      else logs.filter fun entry => config.letterCase.lower entry.toAddress ∈ lowered
    return matching.insertionSort logBefore

def getReceipt (s : State) (txHash : ChainHash) :
    Except ChainError (Option TxReceipt) := do
  assertRpcUp s
  match s.transactions.find? txHash with
  | none => return none
  | some tx =>
    match canonicalBlock s tx with
    | none => return none
    | some block =>
      if tx.status = .pending ∨ tx.status = .dropped then return none
      else return some {
        txHash := tx.hash
        blockNumber := tx.blockNumber.getD 0
        blockHash := block.hash
        status := if tx.status = .mined then 1 else 0 }

/-! ## The write side -/

def txHashOf (config : Config) (clientRef : String) : ChainHash :=
  hash config.digest ["tx", config.network.val, clientRef]

/-- Submit to the mempool; a known hash is left alone. -/
def submit (config : Config) (isMint : Bool) (request : SendRequest) (s : State) :
    Except ChainError ChainHash × State :=
  if request.amount ≤ 0 then
    (.error (.transactionRejected "amount must be positive"), s)
  else
    match assertRpcUp s with
    | .error e => (.error e, s)
    | .ok () =>
      match varchar 64 request.fromAddress, varchar 64 request.toAddress with
      | .ok fromAddress, .ok toAddress =>
        if request.amount.natAbs < 10 ^ 78 then
          let tx : MockTx := {
            hash := txHashOf config request.clientRef
            fromAddress, toAddress
            amount := request.amount.natAbs
            asset := config.asset
            status := .pending
            blockNumber := none
            blockHash := none
            logIndex := none
            isMint
            failOnMine := false
            createdAt := s.clock }
          (.ok tx.hash,
            { s with transactions := (s.transactions.insert? tx).getD s.transactions })
        else (.error (.other "numeric field overflow"), s)
      | _, _ => (.error (.other "invalid text"), s)

def balanceOf (s : State) (address : String) : Int :=
  ((s.balances.find? address).map MockBalance.amount).getD 0

/-- The column takes 78 digits; a sum beyond them is an error. -/
def adjust (s : State) (address : String) (delta : Int) : Option State :=
  let amount := balanceOf s address + delta
  if amount.natAbs < 10 ^ 78 then
    let balances := (s.balances.insert? ⟨address, 0⟩).getD s.balances
    some { s with balances := balances.replace ⟨address, amount⟩ }
  else none

def applyBalances (s : State) (tx : MockTx) (sign : Int) : Option State :=
  (if tx.isMint then some s else adjust s tx.fromAddress.val (-sign * tx.amount)).bind
    fun s' => adjust s' tx.toAddress.val (sign * tx.amount)

def MockTx.precedes (tx tx' : MockTx) : Prop :=
  tx.createdAt < tx'.createdAt ∨
    (tx.createdAt = tx'.createdAt ∧ tx.hash.val ≤ tx'.hash.val)

instance : DecidableRel MockTx.precedes := fun tx tx' =>
  inferInstanceAs (Decidable (tx.createdAt < tx'.createdAt ∨
    (tx.createdAt = tx'.createdAt ∧ tx.hash.val ≤ tx'.hash.val)))

/-- The transactions the next block takes up. -/
def pendingTxs (s : State) : List MockTx :=
  if s.faults.haltMining then []
  else ((s.transactions.select (·.status = .pending)).insertionSort
    MockTx.precedes).take maxTxsPerBlock

/-- The verdict on a transaction, and the faults left for the next ones. -/
def reverts (s : State) (tx : MockTx) : Bool × MockFaults :=
  let injected := 0 < s.faults.failNextTransfers && !tx.isMint
  let faults :=
    if injected && !tx.failOnMine then
      { s.faults with failNextTransfers := s.faults.failNextTransfers - 1 }
    else s.faults
  let funded := tx.isMint ||
    match s.balances.find? tx.fromAddress.val with
    | none => false
    | some sender => tx.amount ≤ sender.amount
  (tx.failOnMine || injected || !funded, faults)

def MockTx.failedIn (tx : MockTx) (block : MockBlock) : MockTx :=
  { tx with
    blockNumber := some block.number
    blockHash := some block.hash
    status := .failed
    logIndex := none }

def MockTx.minedIn (tx : MockTx) (block : MockBlock) (logIndex : Nat) : MockTx :=
  { tx with
    blockNumber := some block.number
    blockHash := some block.hash
    status := .mined
    logIndex := some logIndex }

def saveTx (s : State) (tx : MockTx) : State :=
  { s with transactions := s.transactions.replace tx }

/-- One round of the loop of `mine_block`. -/
def includeTx (block : MockBlock) (s : State) (logIndex : Nat) (tx : MockTx) :
    Option (State × Nat) :=
  let (reverted, faults) := reverts s tx
  if reverted then
    some (saveTx { s with faults } (tx.failedIn block), logIndex)
  else
    (applyBalances { s with faults } tx 1).map fun s' =>
      (saveTx s' (tx.minedIn block logIndex), logIndex + 1)

def includeTxs (block : MockBlock) : List MockTx → State → Nat → Option State
  | [], s, _ => some s
  | tx :: rest, s, logIndex =>
    match includeTx block s logIndex tx with
    | none => none
    | some (s', logIndex') => includeTxs block rest s' logIndex'

/-- `uuid4().hex`. -/
def Draw.hex (draw : Uuid) : String :=
  String.ofList (Uuid.hexDigits 32 draw.int)

/-- The next block, whose hash contains a random draw. -/
def nextBlock (config : Config) (draw : Uuid) (s : State) : MockBlock :=
  let number := ((head? s).map (·.number + 1)).getD genesisNumber
  let parentHash := ((head? s).map MockBlock.hash).getD zeroHash
  { hash := hash config.digest
      ["block", toString number, parentHash.val, Draw.hex draw]
    number, parentHash
    isCanonical := true }

/-- `mine_block`; `none` if a statement raised. -/
def mineBlock (config : Config) (draw : Uuid) (s : State) : Option State :=
  let block := nextBlock config draw s
  match s.blocks.insert? block with
  | none => none
  | some blocks => includeTxs block (pendingTxs s) { s with blocks } 0

/-! ## Reorganisations -/

/-- A transaction of an orphaned block goes back to the mempool or is dropped. -/
def MockTx.evicted (config : Config) (drop : List String) (tx : MockTx) : MockTx :=
  { tx with
    blockNumber := none
    blockHash := none
    logIndex := none
    status :=
      if config.letterCase.lower tx.hash.val ∈ drop.map config.letterCase.lower then
        .dropped
      else .pending }

def evictTx (config : Config) (drop : List String) (s : State) (tx : MockTx) :
    Option State :=
  (if tx.status = .mined then applyBalances s tx (-1) else some s).map fun s' =>
    saveTx s' (tx.evicted config drop)

def orphanBlock (config : Config) (drop : List String) (s : State)
    (block : MockBlock) : Option State :=
  ((s.transactions.select (·.blockHash = some block.hash)).foldlM
    (evictTx config drop) s).map fun s' =>
      { s' with blocks := s'.blocks.replace { block with isCanonical := false } }

def victims (depth : Nat) (s : State) : List MockBlock :=
  match head? s with
  | none => []
  | some head =>
    let lowest := max (genesisNumber + 1) (head.number + 1 - depth)
    (s.blocks.select fun b => b.isCanonical && lowest ≤ b.number).insertionSort
      fun b b' => b'.number ≤ b.number

/-- The first transaction of `reorg`; `none` if a statement raised. -/
def orphanTop (config : Config) (depth : Nat) (drop : List String) (s : State) :
    Option State :=
  (victims depth s).foldlM (orphanBlock config drop) s

/-- The blocks of the competing fork, until one cannot be mined. -/
def mineBlocks (config : Config) (draw : Nat → Uuid) : (count : Nat) → State → State
  | 0, s => s
  | count + 1, s =>
    match mineBlock config (draw count) s with
    | none => s
    | some s' => mineBlocks config draw count s'

def reorg (config : Config) (depth : Nat) (drop : List String) (draw : Nat → Uuid)
    (s : State) : State :=
  match head? s, orphanTop config depth drop s with
  | some _, some s' => mineBlocks config draw ((victims depth s).length + 1) s'
  | _, _ => s

/-! ## Controls -/

def setFaults (rpcAvailable haltMining : Option Bool) (failNextTransfers : Option Int)
    (s : State) : State :=
  { s with faults := {
      rpcAvailable := rpcAvailable.getD s.faults.rpcAvailable
      haltMining := haltMining.getD s.faults.haltMining
      failNextTransfers :=
        (failNextTransfers.map Int.toNat).getD s.faults.failNextTransfers } }

/-- Something happens to the node.  The transactions of a reorg are steps of
their own, as others may come between them. -/
inductive ChainStep where
  | ensureStarted
  | tick (now : Nat)
  | mineBlock (draw : Uuid)
  | orphan (depth : Nat) (drop : List String)
  | setFaults (rpcAvailable haltMining : Option Bool) (failNextTransfers : Option Int)
  | simulateDeposit (toAddress : String) (amount : Int) (clientRef : String)
  | sendTransfer (request : SendRequest)

def chainStep (config : Config) : ChainStep → State → State
  | .ensureStarted, s => MockChain.ensureStarted config s
  | .tick now, s => { s with clock := now }
  | .mineBlock draw, s => (MockChain.mineBlock config draw s).getD s
  | .orphan depth drop, s => (orphanTop config depth drop s).getD s
  | .setFaults rpcAvailable haltMining failNextTransfers, s =>
    MockChain.setFaults rpcAvailable haltMining failNextTransfers s
  | .simulateDeposit toAddress amount clientRef, s =>
    (submit config true ⟨externalSourceAddress, toAddress, amount, clientRef⟩ s).2
  | .sendTransfer request, s => (submit config false request s).2

/-- A reorg as a whole is a run of these steps. -/
theorem reorg_eq_run (config : Config) (depth : Nat) (drop : List String)
    (draw : Nat → Uuid) (s : State) :
    ∃ steps, reorg config depth drop draw s = runSteps (chainStep config) s steps := by
  have hmine : ∀ count (s : State), ∃ steps,
      mineBlocks config draw count s = runSteps (chainStep config) s steps := by
    intro count
    induction count with
    | zero => exact fun s => ⟨[], rfl⟩
    | succ count ih =>
        intro s
        cases hblock : mineBlock config (draw count) s with
        | none => exact ⟨[], by simp [mineBlocks, hblock]⟩
        | some s' =>
            obtain ⟨steps, hsteps⟩ := ih s'
            refine ⟨.mineBlock (draw count) :: steps, ?_⟩
            simp [mineBlocks, hblock, hsteps, chainStep]
  unfold reorg
  split
  next s' _ horphan =>
    obtain ⟨steps, hsteps⟩ := hmine ((victims depth s).length + 1) s'
    refine ⟨.orphan depth drop :: steps, ?_⟩
    simp [hsteps, chainStep, horphan]
  next => exact ⟨[], rfl⟩

/-- The adapter the service talks to. -/
def adapter (config : Config) : ChainAdapter State where
  network := config.network.val
  asset := config.asset
  getBlockNumber := getBlockNumber
  getBlockHash := getBlockHash
  getTransferLogs := getTransferLogs config
  getReceipt := getReceipt
  sendTransfer := submit config false

end CryptoWallet.MockChain
