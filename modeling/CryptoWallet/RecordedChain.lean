import CryptoWallet.ChainView

/-!
# Chains given block by block

A chain which is written down as the hashes of its blocks and the transfer logs
in them, and a node which answers from such a record.  What the simulated node
cannot produce, as a transaction with several logs, can be recorded.
-/

namespace CryptoWallet

structure RecordedChain where
  blocks : List ChainHash
  logs : List TransferLog
  placed : ∀ entry ∈ logs, 0 < entry.blockNumber ∧
    blocks[entry.blockNumber - 1]? = some entry.blockHash
  unique : ∀ entry ∈ logs, ∀ entry' ∈ logs, entry.txHash = entry'.txHash →
    entry.logIndex = entry'.logIndex → entry = entry'
  together : ∀ entry ∈ logs, ∀ entry' ∈ logs, entry.txHash = entry'.txHash →
    entry.blockNumber = entry'.blockNumber

namespace RecordedChain

def hashAt (record : RecordedChain) (number : Nat) : Option ChainHash :=
  if number = 0 then none else record.blocks[number - 1]?

def receiptOf (record : RecordedChain) (txHash : ChainHash) : Option TxReceipt :=
  (record.logs.find? (·.txHash = txHash)).map fun entry =>
    ⟨entry.txHash, entry.blockNumber, entry.blockHash, 1⟩

theorem hashAt_of_mem (record : RecordedChain) {entry : TransferLog}
    (h : entry ∈ record.logs) :
    record.hashAt entry.blockNumber = some entry.blockHash := by
  obtain ⟨hpositive, hblock⟩ := record.placed entry h
  rw [hashAt, if_neg (by omega), hblock]

theorem mem_blocks_of_hashAt (record : RecordedChain) {number : Nat} {hash : ChainHash}
    (h : record.hashAt number = some hash) : hash ∈ record.blocks := by
  unfold hashAt at h
  split at h
  · cases h
  · exact List.mem_of_getElem? h

def view (record : RecordedChain) : ChainView where
  head := record.blocks.length
  hashAt := record.hashAt
  logs := record.logs
  receiptOf := record.receiptOf
  hash_le_head := by
    intro number hash h
    unfold hashAt at h
    split at h
    · cases h
    · have hbound := (List.getElem?_eq_some_iff.mp h).choose
      omega
  log_canonical := fun entry h => record.hashAt_of_mem h
  log_unique := record.unique
  log_receipt := by
    intro entry hentry
    have hsome : (record.logs.find? (·.txHash = entry.txHash)).isSome = true :=
      List.find?_isSome.mpr ⟨entry, hentry, by simp⟩
    obtain ⟨found, hfound⟩ := Option.isSome_iff_exists.mp hsome
    have hmem := List.mem_of_find?_eq_some hfound
    have hhash : found.txHash = entry.txHash := by
      simpa using List.find?_some hfound
    have hnumber := record.together found hmem entry hentry hhash
    have hblock : found.blockHash = entry.blockHash := by
      have hplaced := record.hashAt_of_mem hmem
      rw [hnumber, record.hashAt_of_mem hentry, Option.some.injEq] at hplaced
      exact hplaced.symm
    simp [receiptOf, hfound, hhash, hnumber, hblock]
  receipt_canonical := by
    intro txHash receipt h
    obtain ⟨entry, hentry, rfl⟩ := Option.map_eq_some_iff.mp h
    exact record.hashAt_of_mem (List.mem_of_find?_eq_some hentry)

end RecordedChain

section

variable {σ : Type}

/-- The logs of a block range, as the port filters them. -/
def RecordedChain.logsBetween (record : RecordedChain) (letterCase : LetterCase)
    (fromBlock toBlock : Nat) (addresses : List String) : List TransferLog :=
  record.logs.filter fun entry =>
    (fromBlock ≤ entry.blockNumber && entry.blockNumber ≤ toBlock) &&
      (addresses = [] ||
        letterCase.lower entry.toAddress ∈ addresses.map letterCase.lower)

/-- A node which answers from the record of the state it is in, and sends nothing. -/
def recordedAdapter (letterCase : LetterCase) (recordOf : σ → RecordedChain) :
    ChainAdapter σ where
  network := "BSC"
  asset := "USDT"
  getBlockNumber chain := .ok (recordOf chain).blocks.length
  getBlockHash chain number := .ok ((recordOf chain).hashAt number)
  getTransferLogs chain fromBlock toBlock addresses :=
    .ok ((recordOf chain).logsBetween letterCase fromBlock toBlock addresses)
  getReceipt chain txHash := .ok ((recordOf chain).receiptOf txHash)
  sendTransfer _ chain := (.error (.rpcUnavailable "read only"), chain)

theorem recordedAdapter_shows (letterCase : LetterCase) (recordOf : σ → RecordedChain)
    (chain : σ) :
    Shows (recordedAdapter letterCase recordOf) letterCase chain
      (recordOf chain).view where
  head := rfl
  hash := fun _ => rfl
  logs := by
    intro fromBlock toBlock addresses
    refine ⟨_, rfl, ?_⟩
    intro entry
    simp [RecordedChain.logsBetween, RecordedChain.view]
  receipt := fun _ => rfl

/-- The records of one chain: equal hashes stand for equal blocks. -/
def recordedHistory (letterCase : LetterCase) (recordOf : σ → RecordedChain)
    (hcommitted : ∀ chain chain', ∀ entry ∈ (recordOf chain).logs,
      entry.blockHash ∈ (recordOf chain').blocks → entry ∈ (recordOf chain').logs)
    (hfit : ∀ chain, ∀ entry ∈ (recordOf chain).logs,
      entry.network.length ≤ 32 ∧ entry.toAddress.length ≤ 64) :
    ChainHistory (recordedAdapter letterCase recordOf) letterCase where
  view chain := (recordOf chain).view
  agrees chain := (recordedAdapter_shows letterCase recordOf chain).agrees
  committed := by
    intro chain chain' entry hentry number hhash
    exact hcommitted chain chain' entry hentry
      ((recordOf chain').mem_blocks_of_hashAt hhash)
  texts_fit := hfit

end
end CryptoWallet
