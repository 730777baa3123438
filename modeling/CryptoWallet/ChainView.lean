import CryptoWallet.MockChainHistory

/-!
# One consistent view of a chain

What a caller of the port learns when the chain stands still: a canonical chain
with its blocks, their transfer logs and the receipts of their transactions.
The simulated node shows such a view whenever it is reachable.
-/

namespace CryptoWallet

variable {σ : Type}

/-- A canonical chain, as the calls of the port tell it. -/
structure ChainView where
  head : Nat
  hashAt : Nat → Option ChainHash
  logs : List TransferLog
  receiptOf : ChainHash → Option TxReceipt
  hash_le_head : ∀ {number hash}, hashAt number = some hash → number ≤ head
  log_canonical : ∀ entry ∈ logs, hashAt entry.blockNumber = some entry.blockHash
  log_unique : ∀ entry ∈ logs, ∀ entry' ∈ logs, entry.txHash = entry'.txHash →
    entry.logIndex = entry'.logIndex → entry = entry'
  log_receipt : ∀ entry ∈ logs, receiptOf entry.txHash =
    some ⟨entry.txHash, entry.blockNumber, entry.blockHash, 1⟩
  receipt_canonical : ∀ {txHash receipt}, receiptOf txHash = some receipt →
    hashAt receipt.blockNumber = some receipt.blockHash

/-- The calls meet a chain which gives this view. -/
structure Shows (adapter : ChainAdapter σ) (letterCase : LetterCase) (chain : σ)
    (view : ChainView) : Prop where
  head : adapter.getBlockNumber chain = .ok view.head
  hash : ∀ number, adapter.getBlockHash chain number = .ok (view.hashAt number)
  logs : ∀ fromBlock toBlock addresses, ∃ logs,
    adapter.getTransferLogs chain fromBlock toBlock addresses = .ok logs ∧
      ∀ entry, entry ∈ logs ↔ entry ∈ view.logs ∧
        (fromBlock ≤ entry.blockNumber ∧ entry.blockNumber ≤ toBlock) ∧
        (addresses = [] ∨
          letterCase.lower entry.toAddress ∈ addresses.map letterCase.lower)
  receipt : ∀ txHash, adapter.getReceipt chain txHash = .ok (view.receiptOf txHash)

/-- Every call which is answered is answered from this view. -/
structure Agrees (adapter : ChainAdapter σ) (letterCase : LetterCase) (chain : σ)
    (view : ChainView) : Prop where
  head : ∀ {number}, adapter.getBlockNumber chain = .ok number → number = view.head
  hash : ∀ {number hash}, adapter.getBlockHash chain number = .ok hash →
    hash = view.hashAt number
  logs : ∀ {fromBlock toBlock addresses logs},
    adapter.getTransferLogs chain fromBlock toBlock addresses = .ok logs →
      ∀ entry, entry ∈ logs ↔ entry ∈ view.logs ∧
        (fromBlock ≤ entry.blockNumber ∧ entry.blockNumber ≤ toBlock) ∧
        (addresses = [] ∨
          letterCase.lower entry.toAddress ∈ addresses.map letterCase.lower)
  receipt : ∀ {txHash receipt}, adapter.getReceipt chain txHash = .ok receipt →
    receipt = view.receiptOf txHash

theorem Shows.agrees {adapter : ChainAdapter σ} {letterCase : LetterCase} {chain : σ}
    {view : ChainView} (h : Shows adapter letterCase chain view) :
    Agrees adapter letterCase chain view where
  head := by
    intro number hnumber
    rw [h.head, Except.ok.injEq] at hnumber
    exact hnumber.symm
  hash := by
    intro number hash hhash
    rw [h.hash, Except.ok.injEq] at hhash
    exact hhash.symm
  logs := by
    intro fromBlock toBlock addresses logs hlogs
    obtain ⟨shown, hshown, hmem⟩ := h.logs fromBlock toBlock addresses
    rw [hshown, Except.ok.injEq] at hlogs
    exact hlogs ▸ hmem
  receipt := by
    intro txHash receipt hreceipt
    rw [h.receipt, Except.ok.injEq] at hreceipt
    exact hreceipt.symm

/-- The views a chain gives in the course of time.  Blocks may leave the canonical
chain and come back; the hash of a block commits to its height and its logs. -/
structure ChainHistory (adapter : ChainAdapter σ) (letterCase : LetterCase) where
  view : σ → ChainView
  agrees : ∀ chain, Agrees adapter letterCase chain (view chain)
  committed : ∀ chain chain', ∀ entry ∈ (view chain).logs, ∀ number,
    (view chain').hashAt number = some entry.blockHash → entry ∈ (view chain').logs
  texts_fit : ∀ chain, ∀ entry ∈ (view chain).logs,
    entry.network.length ≤ 32 ∧ entry.toAddress.length ≤ 64

namespace MockChain

/-- The receipt the node gives while it is reachable. -/
def receiptOf (s : State) (txHash : ChainHash) : Option TxReceipt :=
  match s.transactions.find? txHash with
  | none => none
  | some tx =>
    match canonicalBlock s tx with
    | none => none
    | some block =>
      if tx.status = .pending ∨ tx.status = .dropped then none
      else some ⟨tx.hash, tx.blockNumber.getD 0, block.hash,
        if tx.status = .mined then 1 else 0⟩

theorem getReceipt_up {s : State} (hup : assertRpcUp s = .ok ()) (txHash : ChainHash) :
    getReceipt s txHash = .ok (receiptOf s txHash) := by
  simp only [getReceipt, receiptOf, hup, bind, Except.bind]
  cases hfind : s.transactions.find? txHash with
  | none => rfl
  | some tx =>
      dsimp only
      cases hblock : canonicalBlock s tx with
      | none => rfl
      | some block =>
          dsimp only
          split <;> rfl

def headNumber (s : State) : Nat := ((head? s).map MockBlock.number).getD 0

theorem getBlockNumber_ok {s : State} {head : Nat} (h : getBlockNumber s = .ok head) :
    head = headNumber s := by
  unfold getBlockNumber at h
  cases hup : assertRpcUp s with
  | error e => simp [hup, bind, Except.bind] at h
  | ok _ =>
      simp only [hup, bind, Except.bind, pure, Except.pure, Except.ok.injEq] at h
      exact h.symm

theorem getBlockHash_ok {s : State} {number : Nat} {hash : Option ChainHash}
    (h : getBlockHash s number = .ok hash) :
    hash = (canonicalAt s number).map MockBlock.hash := by
  unfold getBlockHash at h
  cases hup : assertRpcUp s with
  | error e => simp [hup, bind, Except.bind] at h
  | ok _ =>
      simp only [hup, bind, Except.bind, pure, Except.pure, Except.ok.injEq] at h
      exact h.symm

theorem head?_of_headNumber {s : State} (h : headNumber s ≠ 0) :
    ∃ b, head? s = some b ∧ b.number = headNumber s := by
  unfold headNumber at h ⊢
  cases hhead : head? s with
  | none => simp [hhead] at h
  | some b => exact ⟨b, rfl, rfl⟩

theorem number_le_headNumber {s : State} {b : MockBlock} (hb : b ∈ s.blocks.rows)
    (hcanonical : b.isCanonical = true) : b.number ≤ headNumber s := by
  unfold headNumber
  cases hhead : head? s with
  | none => simp [head?_none hhead b hb] at hcanonical
  | some head => exact (head?_top hhead).highest b hb hcanonical

theorem onChain_unique {config : Config} {s : State} {entry entry' : TransferLog}
    (h : OnChain config s entry) (h' : OnChain config s entry')
    (hhash : entry.txHash = entry'.txHash) : entry = entry' := by
  obtain ⟨tx, block, hemitted⟩ := h
  obtain ⟨tx', block', hemitted'⟩ := h'
  obtain rfl := hemitted.entry_eq
  obtain rfl := hemitted'.entry_eq
  have htx : tx = tx' := s.transactions.eq_of_mem_of_key_eq hemitted.tx_mem
    hemitted'.tx_mem hhash
  subst htx
  have hblock : block = block' := s.blocks.eq_of_mem_of_key_eq hemitted.block_mem
    hemitted'.block_mem (Option.some.inj (hemitted.blockHash.symm.trans hemitted'.blockHash))
  rw [hblock]

/-- The logs up to the head are those of the chain. -/
theorem mem_logsUpTo_head {config : Config} {s : State} (hs : Consistent s)
    {entry : TransferLog} :
    entry ∈ logsUpTo config s (headNumber s) ↔ OnChain config s entry := by
  rw [mem_logsUpTo hs]
  constructor
  · exact fun h => h.1
  · intro h
    refine ⟨h, ?_⟩
    obtain ⟨tx, block, hemitted⟩ := h
    obtain rfl := hemitted.entry_eq
    exact number_le_headNumber hemitted.block_mem hemitted.canonical

/-- What the node shows while it is reachable. -/
def view (config : Config) (s : State) (hs : Consistent s) (hup : assertRpcUp s = .ok ()) :
    ChainView where
  head := headNumber s
  hashAt number := (canonicalAt s number).map MockBlock.hash
  logs := logsUpTo config s (headNumber s)
  receiptOf := receiptOf s
  hash_le_head := by
    intro number hash h
    obtain ⟨b, hb, _⟩ := Option.map_eq_some_iff.mp h
    obtain ⟨hmem, hcanonical, rfl⟩ := (canonicalAt_iff hs).mp hb
    exact number_le_headNumber hmem hcanonical
  log_canonical := by
    intro entry hentry
    obtain ⟨⟨tx, block, hemitted⟩, _⟩ := (mem_logsUpTo hs).mp hentry
    obtain rfl := hemitted.entry_eq
    have hat : canonicalAt s block.number = some block :=
      (canonicalAt_iff hs).mpr ⟨hemitted.block_mem, hemitted.canonical, rfl⟩
    simp [MockTx.log, hat]
  log_unique := by
    intro entry hentry entry' hentry' hhash _
    exact onChain_unique ((mem_logsUpTo hs).mp hentry).1 ((mem_logsUpTo hs).mp hentry').1
      hhash
  log_receipt := by
    intro entry hentry
    have hreceipt := getReceipt_up hup entry.txHash
    exact getReceipt_onChain hs ((mem_logsUpTo hs).mp hentry).1 hreceipt
  receipt_canonical := by
    intro txHash receipt h
    unfold receiptOf at h
    cases hfind : s.transactions.find? txHash with
    | none => simp [hfind] at h
    | some tx =>
        simp only [hfind] at h
        cases hblock : canonicalBlock s tx with
        | none => simp [hblock] at h
        | some block =>
            simp only [hblock, Option.ite_none_left_eq_some, Option.some.injEq] at h
            obtain ⟨hstatus, rfl⟩ := h
            obtain ⟨hmem, hcanonical, hhash⟩ := canonicalBlock_iff.mp hblock
            have hplaced := hs.placed tx (Table.mem_of_find? hfind)
            have hat : ∃ b ∈ s.blocks.rows, b.isCanonical = true ∧
                tx.blockHash = some b.hash ∧ tx.blockNumber = some b.number := by
              unfold Placed at hplaced
              cases hcase : tx.status with
              | pending => simp [hcase] at hstatus
              | dropped => simp [hcase] at hstatus
              | mined => simpa [hcase] using hplaced
              | failed => simpa [hcase] using hplaced
            obtain ⟨b, hb, _, hhash', hnumber⟩ := hat
            have heq : b = block := s.blocks.eq_of_mem_of_key_eq hb hmem
              (Option.some.inj (hhash'.symm.trans hhash))
            rw [heq] at hnumber
            have hfound : canonicalAt s block.number = some block :=
              (canonicalAt_iff hs).mpr ⟨hmem, hcanonical, rfl⟩
            simp [hnumber, hfound]

theorem shows_view (config : Config) {s : State} (hs : Consistent s)
    (hup : assertRpcUp s = .ok ()) :
    Shows (adapter config) config.letterCase s (view config s hs hup) := by
  refine ⟨?_, ?_, ?_, fun txHash => getReceipt_up hup txHash⟩
  · simp [adapter, getBlockNumber, hup, bind, Except.bind, pure, Except.pure, view,
      headNumber]
  · intro number
    simp [adapter, getBlockHash, hup, bind, Except.bind, pure, Except.pure, view]
  · intro fromBlock toBlock addresses
    have hcall : ∃ logs, getTransferLogs config s fromBlock toBlock addresses =
        .ok logs := by
      unfold getTransferLogs
      split
      · exact ⟨[], rfl⟩
      · simp [hup, bind, Except.bind, pure, Except.pure]
    obtain ⟨logs, hlogs⟩ := hcall
    refine ⟨logs, hlogs, ?_⟩
    intro entry
    rw [mem_getTransferLogs hs hlogs]
    exact and_congr_left' (mem_logsUpTo_head hs).symm

end MockChain
end CryptoWallet
