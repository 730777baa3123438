import CryptoWallet.KeyedTable
import CryptoWallet.MockChain

/-!
# The balances of the simulated chain

A token balance is what the mined transactions moved.  Mining adds the
transactions of one new block on top of the chain, and a reorg takes the blocks
off again from the top; so a chain whose every prefix was a valid execution
stays one.
-/

namespace CryptoWallet.MockChain

/-! ## What a transaction moves -/

def MockTx.received (tx : MockTx) (address : String) : Int :=
  if tx.toAddress.val = address then tx.amount else 0

/-- A mint comes from outside. -/
def MockTx.sent (tx : MockTx) (address : String) : Int :=
  if tx.isMint = false ∧ tx.fromAddress.val = address then tx.amount else 0

def MockTx.effect (tx : MockTx) (address : String) : Int :=
  tx.received address - tx.sent address

/-- The sum over the mined transactions. -/
def replay (s : State) (address : String) : Int :=
  s.transactions.total fun tx => if tx.status = .mined then tx.effect address else 0

def MockTx.minedUpTo (tx : MockTx) (height : Nat) : Bool :=
  tx.status = .mined && tx.blockNumber.any (· ≤ height)

def replayUpTo (s : State) (height : Nat) (address : String) : Int :=
  s.transactions.total fun tx => if tx.minedUpTo height then tx.effect address else 0

/-- The two states differ in the balances only. -/
structure Moved (change : String → Int) (s s' : State) : Prop where
  blocks : s'.blocks = s.blocks
  transactions : s'.transactions = s.transactions
  faults : s'.faults = s.faults
  balance : ∀ address, balanceOf s' address = balanceOf s address + change address

/-- The row is there once it has been inserted with amount 0 or was before. -/
theorem opened_find? (balances : Table String MockBalance MockBalance.address)
    (address : String) :
    let opened := (balances.insert? ⟨address, 0⟩).getD balances
    (∃ row, opened.find? address = some row) ∧
      ∀ other ≠ address, opened.find? other = balances.find? other := by
  cases hinsert : balances.insert? ⟨address, 0⟩ with
  | none =>
      have hrow := (balances.insert?_eq_none_iff _).mp hinsert
      exact ⟨Option.isSome_iff_exists.mp hrow, fun other _ => rfl⟩
  | some opened =>
      refine ⟨⟨⟨address, 0⟩, ?_⟩, ?_⟩
      · exact (Table.find?_insert? hinsert address).trans (if_pos rfl)
      · intro other hother
        exact (Table.find?_insert? hinsert other).trans (if_neg hother)

theorem adjust_moved {s s' : State} {address : String} {delta : Int}
    (h : adjust s address delta = some s') :
    Moved (fun other => if other = address then delta else 0) s s' := by
  unfold adjust at h
  simp only [Option.ite_none_right_eq_some, Option.some.injEq] at h
  obtain ⟨_, rfl⟩ := h
  refine ⟨rfl, rfl, rfl, ?_⟩
  intro other
  obtain ⟨⟨row, hrow⟩, hothers⟩ := opened_find? s.balances address
  simp only [balanceOf]
  by_cases hother : other = address
  · subst hother
    rw [Table.find?_replace_of_key _ rfl hrow]
    simp
  · rw [Table.find?_replace_of_ne _ _ hother, hothers other hother]
    simp [hother]

theorem Moved.trans {change change' : String → Int} {s s' s'' : State}
    (h : Moved change s s') (h' : Moved change' s' s'') :
    Moved (fun address => change address + change' address) s s'' := by
  refine ⟨h'.blocks.trans h.blocks, h'.transactions.trans h.transactions,
    h'.faults.trans h.faults, ?_⟩
  intro address
  rw [h'.balance, h.balance, add_assoc]

theorem Moved.refl (s : State) : Moved (fun _ => 0) s s :=
  ⟨rfl, rfl, rfl, fun address => (add_zero (balanceOf s address)).symm⟩

theorem applyBalances_moved {s s' : State} {tx : MockTx} {sign : Int}
    (h : applyBalances s tx sign = some s') :
    Moved (fun address => sign * tx.effect address) s s' := by
  unfold applyBalances at h
  obtain ⟨mid, hsender, hrecipient⟩ := Option.bind_eq_some_iff.mp h
  have hsecond := adjust_moved hrecipient
  have hfirst : Moved (fun address => -sign * tx.sent address) s mid := by
    by_cases hmint : tx.isMint = true
    · simp only [hmint, if_true, Option.some.injEq] at hsender
      subst hsender
      simpa [MockTx.sent, hmint] using Moved.refl s
    · simp only [hmint, Bool.false_eq_true, if_false] at hsender
      have hmoved := adjust_moved hsender
      simp only [Bool.not_eq_true] at hmint
      convert hmoved using 2
      simp [MockTx.sent, hmint, eq_comm]
  convert hfirst.trans hsecond using 2
  simp only [MockTx.effect, MockTx.received, mul_sub, mul_ite, mul_zero,
    eq_comm (a := tx.toAddress.val)]
  ring

/-! ## The shape of the chain -/

/-- Every canonical block but the first sits on another one. -/
structure Linked (s : State) : Prop where
  height_unique : ∀ b ∈ s.blocks.rows, ∀ b' ∈ s.blocks.rows,
    b.isCanonical = true → b'.isCanonical = true → b.number = b'.number → b = b'
  height_positive : ∀ b ∈ s.blocks.rows, b.isCanonical = true → genesisNumber ≤ b.number
  parent : ∀ b ∈ s.blocks.rows, b.isCanonical = true → genesisNumber < b.number →
    ∃ b' ∈ s.blocks.rows, b'.isCanonical = true ∧ b'.number + 1 = b.number ∧
      b'.hash = b.parentHash

/-- A transaction points to a canonical block exactly when it was executed. -/
def Placed (s : State) (tx : MockTx) : Prop :=
  match tx.status with
  | .pending | .dropped =>
    tx.blockNumber = none ∧ tx.blockHash = none ∧ tx.logIndex = none
  | .mined | .failed =>
    ∃ b ∈ s.blocks.rows, b.isCanonical = true ∧ tx.blockHash = some b.hash ∧
      tx.blockNumber = some b.number

/-- The state of a chain which was executed block by block. -/
structure Consistent (s : State) : Prop where
  linked : Linked s
  placed : ∀ tx ∈ s.transactions.rows, Placed s tx
  balances : ∀ address, balanceOf s address = replay s address
  solvent : ∀ height address, 0 ≤ replayUpTo s height address

/-- The block is canonical, and none is above it. -/
structure Top (s : State) (block : MockBlock) : Prop where
  mem : block ∈ s.blocks.rows
  canonical : block.isCanonical = true
  highest : ∀ b ∈ s.blocks.rows, b.isCanonical = true → b.number ≤ block.number

theorem head?_top {s : State} {block : MockBlock} (h : head? s = some block) :
    Top s block := by
  have hsorted := List.pairwise_insertionSort
    (fun b b' : MockBlock => b'.number ≤ b.number) (s.blocks.select (·.isCanonical))
  unfold head? at h
  cases hlist : (s.blocks.select (·.isCanonical)).insertionSort
      fun b b' => b'.number ≤ b.number with
  | nil => simp [hlist] at h
  | cons first rest =>
      rw [hlist] at h hsorted
      simp only [List.head?_cons, Option.some.injEq] at h
      subst h
      have hmem : ∀ b, b ∈ first :: rest ↔ b ∈ s.blocks.rows ∧ b.isCanonical = true := by
        intro b
        rw [← hlist, List.mem_insertionSort]
        exact List.mem_filter
      have hfirst := (hmem first).mp List.mem_cons_self
      refine ⟨hfirst.1, hfirst.2, ?_⟩
      intro b hb hcanonical
      rcases List.mem_cons.mp ((hmem b).mpr ⟨hb, hcanonical⟩) with heq | hrest
      · rw [heq]
      · exact (List.pairwise_cons.mp hsorted).1 b hrest

theorem head?_none {s : State} (h : head? s = none) :
    ∀ b ∈ s.blocks.rows, b.isCanonical = false := by
  unfold head? at h
  rw [List.head?_eq_none_iff] at h
  intro b hb
  by_contra hcanonical
  have hmem : b ∈ (s.blocks.select (·.isCanonical)).insertionSort
      fun b b' => b'.number ≤ b.number := by
    rw [List.mem_insertionSort]
    exact List.mem_filter.mpr ⟨hb, by simpa using hcanonical⟩
  simp [h] at hmem

theorem Placed.of_blocks {s s' : State} {tx : MockTx} (h : Placed s tx)
    (hblocks : ∀ b ∈ s.blocks.rows, b.isCanonical = true → b ∈ s'.blocks.rows) :
    Placed s' tx := by
  unfold Placed at h ⊢
  cases hstatus : tx.status with
  | pending => simpa [hstatus] using h
  | dropped => simpa [hstatus] using h
  | mined =>
      simp only [hstatus] at h ⊢
      obtain ⟨b, hb, hcanonical, hplace⟩ := h
      exact ⟨b, hblocks b hb hcanonical, hcanonical, hplace⟩
  | failed =>
      simp only [hstatus] at h ⊢
      obtain ⟨b, hb, hcanonical, hplace⟩ := h
      exact ⟨b, hblocks b hb hcanonical, hcanonical, hplace⟩

/-- Below the top nothing is missing from the replay. -/
theorem replayUpTo_eq_replay {s : State} {height : Nat}
    (h : ∀ tx ∈ s.transactions.rows, tx.status = .mined →
      ∃ number, tx.blockNumber = some number ∧ number ≤ height) (address : String) :
    replayUpTo s height address = replay s address := by
  unfold replayUpTo replay Table.total
  congr 1
  apply List.map_congr_left
  intro tx htx
  by_cases hstatus : tx.status = .mined
  · obtain ⟨number, hnumber, hle⟩ := h tx htx hstatus
    simp [MockTx.minedUpTo, hstatus, hnumber, hle]
  · simp [MockTx.minedUpTo, hstatus]

theorem Consistent.mined_le {s : State} (h : Consistent s) {block : MockBlock}
    (htop : Top s block) {tx : MockTx} (htx : tx ∈ s.transactions.rows)
    (hstatus : tx.status = .mined) :
    ∃ number, tx.blockNumber = some number ∧ number ≤ block.number := by
  have hplaced := h.placed tx htx
  simp only [Placed, hstatus] at hplaced
  obtain ⟨b, hb, hcanonical, _, hnumber⟩ := hplaced
  exact ⟨b.number, hnumber, htop.highest b hb hcanonical⟩

theorem Consistent.balance_nonneg {s : State} (h : Consistent s) (address : String) :
    0 ≤ balanceOf s address := by
  rw [h.balances]
  cases hhead : head? s with
  | some block =>
      rw [← replayUpTo_eq_replay (fun tx htx => h.mined_le (head?_top hhead) htx)]
      exact h.solvent block.number address
  | none =>
      have hfree : ∀ tx ∈ s.transactions.rows, tx.status = .mined → False := by
        intro tx htx hstatus
        have hplaced := h.placed tx htx
        simp only [Placed, hstatus] at hplaced
        obtain ⟨b, hb, hcanonical, _⟩ := hplaced
        simp [head?_none hhead b hb] at hcanonical
      have hall : replayUpTo s 0 address = replay s address :=
        replayUpTo_eq_replay (fun tx htx hstatus => (hfree tx htx hstatus).elim) address
      rw [← hall]
      exact h.solvent 0 address

/-! ## Mining a block -/

@[simp] theorem saveTx_blocks (s : State) (tx : MockTx) :
    (saveTx s tx).blocks = s.blocks := rfl

@[simp] theorem saveTx_transactions (s : State) (tx : MockTx) :
    (saveTx s tx).transactions = s.transactions.replace tx := rfl

@[simp] theorem saveTx_balanceOf (s : State) (tx : MockTx) (address : String) :
    balanceOf (saveTx s tx) address = balanceOf s address := rfl

/-- What a block makes of a transaction. -/
inductive MockTx.IncludedAs (tx : MockTx) (block : MockBlock) : MockTx → Prop where
  | failed : tx.IncludedAs block (tx.failedIn block)
  | mined (logIndex : Nat) : tx.IncludedAs block (tx.minedIn block logIndex)

/-- One round of the loop executes one transaction, with effect if its sender
can pay. -/
theorem includeTx_cases {block : MockBlock} {s s' : State} {logIndex logIndex' : Nat}
    {tx : MockTx} (h : includeTx block s logIndex tx = some (s', logIndex')) :
    ∃ tx', tx.IncludedAs block tx' ∧ s'.blocks = s.blocks ∧
      s'.transactions = s.transactions.replace tx' ∧
      ((tx'.status = .failed ∧ ∀ address, balanceOf s' address = balanceOf s address) ∨
        (tx'.status = .mined ∧
          (∀ address, balanceOf s' address = balanceOf s address + tx.effect address) ∧
          ∀ address, 0 ≤ balanceOf s address →
            tx.sent address ≤ balanceOf s address)) := by
  unfold includeTx at h
  cases hreverts : reverts s tx with
  | mk reverted faults =>
      simp only [hreverts] at h
      cases reverted with
      | true =>
          simp only [if_true, Option.some.injEq, Prod.mk.injEq] at h
          obtain ⟨rfl, _⟩ := h
          exact ⟨tx.failedIn block, .failed, rfl, rfl, Or.inl ⟨rfl, fun _ => rfl⟩⟩
      | false =>
          simp only [Bool.false_eq_true, if_false, Option.map_eq_some_iff,
            Prod.mk.injEq] at h
          obtain ⟨mid, happly, rfl, _⟩ := h
          have hmoved := applyBalances_moved happly
          refine ⟨tx.minedIn block logIndex, .mined logIndex, hmoved.blocks, ?_,
            Or.inr ⟨rfl, ?_, ?_⟩⟩
          · rw [saveTx_transactions, hmoved.transactions]
          · intro address
            rw [saveTx_balanceOf, hmoved.balance, one_mul]
            rfl
          · intro address hnonneg
            unfold MockTx.sent
            split
            next hsender =>
              have hfunded := congrArg Prod.fst hreverts
              simp only [reverts, Bool.or_eq_false_iff, Bool.not_eq_false'] at hfunded
              have hpays := hfunded.2
              simp only [hsender.1, Bool.false_or] at hpays
              rw [hsender.2] at hpays
              unfold balanceOf
              cases hfind : s.balances.find? address with
              | none => simp [hfind] at hpays
              | some sender => simpa [hfind] using hpays
            next => exact hnonneg

theorem MockTx.IncludedAs.hash_eq {tx tx' : MockTx} {block : MockBlock}
    (h : tx.IncludedAs block tx') : tx'.hash = tx.hash := by
  cases h <;> rfl

theorem MockTx.IncludedAs.effect_eq {tx tx' : MockTx} {block : MockBlock}
    (h : tx.IncludedAs block tx') (address : String) :
    tx'.effect address = tx.effect address := by
  cases h <;> rfl

theorem MockTx.IncludedAs.place {tx tx' : MockTx} {block : MockBlock}
    (h : tx.IncludedAs block tx') :
    (tx'.status = .failed ∨ tx'.status = .mined) ∧ tx'.blockHash = some block.hash ∧
      tx'.blockNumber = some block.number := by
  cases h with
  | failed => exact ⟨Or.inl rfl, rfl, rfl⟩
  | mined logIndex => exact ⟨Or.inr rfl, rfl, rfl⟩

/-- A sum over the transactions after one of them was executed. -/
theorem total_replace_pending {s : State} {tx tx' : MockTx}
    (htx : s.transactions.find? tx.hash = some tx) (hhash : tx'.hash = tx.hash)
    (weight : MockTx → Int) (hweight : weight tx = 0) :
    (s.transactions.replace tx').total weight =
      s.transactions.total weight + weight tx' := by
  rw [← hhash] at htx
  rw [Table.total_replace _ htx, hweight, sub_zero]

/-- The chain stays consistent in each round of the loop. -/
theorem includeTx_consistent {block : MockBlock} {s s' : State}
    {logIndex logIndex' : Nat} {tx : MockTx} (hs : Consistent s) (htop : Top s block)
    (htx : s.transactions.find? tx.hash = some tx) (hpending : tx.status = .pending)
    (h : includeTx block s logIndex tx = some (s', logIndex')) : Consistent s' := by
  obtain ⟨tx', hincluded, hblocks, htransactions, hbalance⟩ := includeTx_cases h
  have hold := htx
  rw [← hincluded.hash_eq] at hold
  have hplace := hincluded.place
  have hreplay : ∀ address, replay s' address =
      replay s address + if tx'.status = .mined then tx.effect address else 0 := by
    intro address
    unfold replay
    rw [htransactions, total_replace_pending htx hincluded.hash_eq _ (by simp [hpending]),
      hincluded.effect_eq]
  have hbalances : ∀ address, balanceOf s' address = replay s' address := by
    intro address
    rw [hreplay, ← hs.balances]
    rcases hbalance with ⟨hfailed, hsame⟩ | ⟨hmined, hmoved, _⟩
    · simp [hfailed, hsame address]
    · simp [hmined, hmoved address]
  have hplaced : ∀ r ∈ s'.transactions.rows, Placed s' r := by
    intro r hr
    rw [htransactions] at hr
    rcases (Table.mem_replace _ hold).mp hr with rfl | ⟨hr, _⟩
    · have hexecuted : ∃ b ∈ s'.blocks.rows, b.isCanonical = true ∧
          r.blockHash = some b.hash ∧ r.blockNumber = some b.number := by
        rw [hblocks]
        exact ⟨block, htop.mem, htop.canonical, hplace.2⟩
      unfold Placed
      rcases hplace.1 with hstatus | hstatus
      · simpa [hstatus] using hexecuted
      · simpa [hstatus] using hexecuted
    · apply (hs.placed r hr).of_blocks
      intro b hb _
      rw [hblocks]
      exact hb
  refine ⟨?_, hplaced, hbalances, ?_⟩
  · obtain ⟨hunique, hpositive, hparent⟩ := hs.linked
    rw [← hblocks] at hunique hpositive hparent
    exact ⟨hunique, hpositive, hparent⟩
  · intro height address
    by_cases hheight : height < block.number
    · -- the transaction lies above this height
      have hsame : replayUpTo s' height address = replayUpTo s height address := by
        unfold replayUpTo
        rw [htransactions, total_replace_pending htx hincluded.hash_eq _
          (by simp [MockTx.minedUpTo, hpending])]
        simp [MockTx.minedUpTo, hplace.2.2, Nat.not_le.mpr hheight]
      rw [hsame]
      exact hs.solvent height address
    · have htop' : Top s' block := by
        obtain ⟨hmem, hcanonical, hhighest⟩ := htop
        rw [← hblocks] at hmem hhighest
        exact ⟨hmem, hcanonical, hhighest⟩
      have hall : ∀ r ∈ s'.transactions.rows, r.status = .mined →
          ∃ number, r.blockNumber = some number ∧ number ≤ height := by
        intro r hr hstatus
        have hat := hplaced r hr
        simp only [Placed, hstatus] at hat
        obtain ⟨b, hb, hcanonical, _, hnumber⟩ := hat
        have hle := htop'.highest b hb hcanonical
        exact ⟨b.number, hnumber, by omega⟩
      rw [replayUpTo_eq_replay hall, ← hbalances]
      have hnonneg := hs.balance_nonneg address
      rcases hbalance with ⟨_, hsame⟩ | ⟨_, hmoved, hpays⟩
      · rw [hsame]
        exact hnonneg
      · have hreceived : 0 ≤ tx.received address := by
          unfold MockTx.received
          split <;> omega
        have hsent := hpays address hnonneg
        rw [hmoved, MockTx.effect]
        omega

theorem includeTxs_consistent {block : MockBlock} {txs : List MockTx} {s s' : State}
    {logIndex : Nat} (hs : Consistent s) (htop : Top s block)
    (htxs : ∀ tx ∈ txs, tx ∈ s.transactions.rows ∧ tx.status = .pending)
    (hnodup : (txs.map MockTx.hash).Nodup)
    (h : includeTxs block txs s logIndex = some s') :
    Consistent s' ∧ s'.blocks = s.blocks := by
  induction txs generalizing s logIndex with
  | nil =>
      simp only [includeTxs, Option.some.injEq] at h
      subst h
      exact ⟨hs, rfl⟩
  | cons tx rest ih =>
      simp only [includeTxs] at h
      cases hfirst : includeTx block s logIndex tx with
      | none => simp [hfirst] at h
      | some result =>
          obtain ⟨mid, logIndex'⟩ := result
          simp only [hfirst] at h
          have htx := htxs tx List.mem_cons_self
          have hfind := s.transactions.find?_of_mem htx.1
          obtain ⟨tx', hincluded, hblocks, htransactions, _⟩ := includeTx_cases hfirst
          have hmid := includeTx_consistent hs htop hfind htx.2 hfirst
          obtain ⟨hfresh, hrest⟩ := List.nodup_cons.mp hnodup
          have hkept : ∀ r ∈ rest, r ∈ mid.transactions.rows ∧ r.status = .pending := by
            intro r hr
            have hr' := htxs r (List.mem_cons_of_mem tx hr)
            have hkey : r.hash ≠ tx'.hash := by
              rw [hincluded.hash_eq]
              exact fun heq => hfresh (heq ▸ List.mem_map_of_mem hr)
            rw [htransactions]
            rw [← hincluded.hash_eq] at hfind
            exact ⟨(Table.mem_replace _ hfind).mpr (Or.inr ⟨hr'.1, hkey⟩), hr'.2⟩
          have htop' : Top mid block := by
            obtain ⟨hmem, hcanonical, hhighest⟩ := htop
            rw [← hblocks] at hmem hhighest
            exact ⟨hmem, hcanonical, hhighest⟩
          obtain ⟨hlast, hsame⟩ := ih hmid htop' hkept hrest h
          exact ⟨hlast, hsame.trans hblocks⟩

theorem pendingTxs_mem {s : State} {tx : MockTx} (h : tx ∈ pendingTxs s) :
    tx ∈ s.transactions.rows ∧ tx.status = .pending := by
  unfold pendingTxs at h
  split at h
  · simp at h
  · have hmem := List.mem_of_mem_take h
    rw [List.mem_insertionSort] at hmem
    simpa [Table.select] using hmem

theorem pendingTxs_nodup (s : State) : ((pendingTxs s).map MockTx.hash).Nodup := by
  unfold pendingTxs
  split
  · simp
  · have hselect : ((s.transactions.select (·.status = .pending)).map MockTx.hash).Nodup :=
      s.transactions.nodup.sublist (List.filter_sublist.map _)
    have hsorted := ((List.perm_insertionSort MockTx.precedes
      (s.transactions.select (·.status = .pending))).map MockTx.hash).nodup_iff.mpr hselect
    exact hsorted.sublist ((List.take_sublist _ _).map _)

/-- A new block on top of the chain, before it takes up transactions. -/
theorem nextBlock_consistent {config : Config} {draw : Uuid} {s : State}
    {blocks : Table ChainHash MockBlock MockBlock.hash} (hs : Consistent s)
    (h : s.blocks.insert? (nextBlock config draw s) = some blocks) :
    Consistent { s with blocks } ∧ Top { s with blocks } (nextBlock config draw s) := by
  have hmem : ∀ b, b ∈ blocks.rows ↔ b ∈ s.blocks.rows ∨ b = nextBlock config draw s :=
    fun b => Table.mem_insert? h
  have hnew : (nextBlock config draw s).isCanonical = true := rfl
  have hbelow : ∀ b ∈ s.blocks.rows, b.isCanonical = true →
      b.number < (nextBlock config draw s).number := by
    intro b hb hcanonical
    cases hhead : head? s with
    | some block =>
        have hle := (head?_top hhead).highest b hb hcanonical
        simp only [nextBlock, hhead, Option.map_some, Option.getD_some]
        omega
    | none => simp [head?_none hhead b hb] at hcanonical
  have hlinked : Linked { s with blocks } := by
    refine ⟨?_, ?_, ?_⟩
    · intro b hb b' hb' hcanonical hcanonical' hnumber
      rcases (hmem b).mp hb with hb | rfl
      · rcases (hmem b').mp hb' with hb' | rfl
        · exact hs.linked.height_unique b hb b' hb' hcanonical hcanonical' hnumber
        · have hlt := hbelow b hb hcanonical
          omega
      · rcases (hmem b').mp hb' with hb' | rfl
        · have hlt := hbelow b' hb' hcanonical'
          omega
        · rfl
    · intro b hb hcanonical
      rcases (hmem b).mp hb with hb | rfl
      · exact hs.linked.height_positive b hb hcanonical
      · cases hhead : head? s with
        | some block =>
            simp only [nextBlock, hhead, genesisNumber, Option.map_some, Option.getD_some]
            omega
        | none => simp [nextBlock, hhead]
    · intro b hb hcanonical hgenesis
      rcases (hmem b).mp hb with hb | rfl
      · obtain ⟨b', hb', hparent⟩ := hs.linked.parent b hb hcanonical hgenesis
        exact ⟨b', (hmem b').mpr (Or.inl hb'), hparent⟩
      · cases hhead : head? s with
        | some block =>
            have htop := head?_top hhead
            refine ⟨block, (hmem block).mpr (Or.inl htop.mem), htop.canonical, ?_, ?_⟩
            · simp [nextBlock, hhead]
            · simp [nextBlock, hhead]
        | none => simp [nextBlock, hhead] at hgenesis
  refine ⟨⟨hlinked, ?_, hs.balances, hs.solvent⟩, ⟨(hmem _).mpr (Or.inr rfl), hnew, ?_⟩⟩
  · intro tx htx
    apply (hs.placed tx htx).of_blocks
    intro b hb _
    exact (hmem b).mpr (Or.inl hb)
  · intro b hb hcanonical
    rcases (hmem b).mp hb with hb | rfl
    · exact (hbelow b hb hcanonical).le
    · exact le_rfl

theorem mineBlock_consistent {config : Config} {draw : Uuid} {s s' : State}
    (hs : Consistent s) (h : mineBlock config draw s = some s') : Consistent s' := by
  unfold mineBlock at h
  cases hinsert : s.blocks.insert? (nextBlock config draw s) with
  | none => simp [hinsert] at h
  | some blocks =>
      simp only [hinsert] at h
      obtain ⟨hnext, htop⟩ := nextBlock_consistent hs hinsert
      exact (includeTxs_consistent hnext htop (fun tx htx => pendingTxs_mem htx)
        (pendingTxs_nodup s) h).1

/-! ## Taking blocks off -/

theorem MockTx.evicted_place (config : Config) (drop : List String) (tx : MockTx) :
    ((tx.evicted config drop).status = .pending ∨
        (tx.evicted config drop).status = .dropped) ∧
      (tx.evicted config drop).blockNumber = none ∧
      (tx.evicted config drop).blockHash = none ∧
      (tx.evicted config drop).logIndex = none := by
  refine ⟨?_, rfl, rfl, rfl⟩
  unfold MockTx.evicted
  dsimp only
  split
  · exact Or.inr rfl
  · exact Or.inl rfl

theorem MockTx.evicted_not_mined (config : Config) (drop : List String) (tx : MockTx) :
    (tx.evicted config drop).status ≠ .mined := by
  rcases (tx.evicted_place config drop).1 with hstatus | hstatus <;> simp [hstatus]

/-- Undoing a transaction keeps the balances a replay. -/
theorem evictTx_replay {config : Config} {drop : List String} {s s' : State}
    {tx : MockTx} (hs : ∀ address, balanceOf s address = replay s address)
    (htx : tx ∈ s.transactions.rows) (h : evictTx config drop s tx = some s') :
    (∀ address, balanceOf s' address = replay s' address) ∧ s'.blocks = s.blocks ∧
      s'.transactions = s.transactions.replace (tx.evicted config drop) := by
  have hfind : s.transactions.find? (tx.evicted config drop).hash = some tx :=
    s.transactions.find?_of_mem htx
  have hreplay : ∀ address,
      ((s.transactions.replace (tx.evicted config drop)).total fun r =>
        if r.status = .mined then r.effect address else 0) =
      replay s address - if tx.status = .mined then tx.effect address else 0 := by
    intro address
    rw [Table.total_replace _ hfind, if_neg (tx.evicted_not_mined config drop), add_zero]
    rfl
  unfold evictTx at h
  obtain ⟨mid, hmid, rfl⟩ := Option.map_eq_some_iff.mp h
  by_cases hstatus : tx.status = .mined
  · rw [if_pos hstatus] at hmid
    have hmoved := applyBalances_moved hmid
    refine ⟨?_, hmoved.blocks, by rw [saveTx_transactions, hmoved.transactions]⟩
    intro address
    have hsum := hreplay address
    rw [if_pos hstatus] at hsum
    rw [saveTx_balanceOf, hmoved.balance, hs]
    unfold replay
    rw [saveTx_transactions, hmoved.transactions, hsum]
    simp only [replay]
    omega
  · rw [if_neg hstatus, Option.some.injEq] at hmid
    subst hmid
    refine ⟨?_, rfl, rfl⟩
    intro address
    have hsum := hreplay address
    rw [if_neg hstatus, sub_zero] at hsum
    rw [saveTx_balanceOf, hs]
    exact hsum.symm

theorem evictTxs_replay {config : Config} {drop : List String} {txs : List MockTx}
    {s s' : State} (hs : ∀ address, balanceOf s address = replay s address)
    (htxs : ∀ tx ∈ txs, tx ∈ s.transactions.rows) (hnodup : (txs.map MockTx.hash).Nodup)
    (h : txs.foldlM (evictTx config drop) s = some s') :
    (∀ address, balanceOf s' address = replay s' address) ∧ s'.blocks = s.blocks ∧
      s'.transactions.rows = s.transactions.rows.map fun r =>
        if r ∈ txs then r.evicted config drop else r := by
  induction txs generalizing s with
  | nil =>
      simp only [List.foldlM_nil, pure, Option.some.injEq] at h
      subst h
      exact ⟨hs, rfl, by simp⟩
  | cons tx rest ih =>
      rw [List.foldlM_cons] at h
      obtain ⟨mid, hfirst, hlast⟩ := Option.bind_eq_some_iff.mp h
      have htx := htxs tx List.mem_cons_self
      obtain ⟨hmid, hblocks, htransactions⟩ := evictTx_replay hs htx hfirst
      obtain ⟨hfresh, hrest⟩ := List.nodup_cons.mp hnodup
      have hfind : s.transactions.find? (tx.evicted config drop).hash = some tx :=
        s.transactions.find?_of_mem htx
      have hother : ∀ r ∈ rest, r.hash ≠ tx.hash :=
        fun r hr heq => hfresh (heq ▸ List.mem_map_of_mem hr)
      have hkept : ∀ r ∈ rest, r ∈ mid.transactions.rows := by
        intro r hr
        rw [htransactions]
        exact (Table.mem_replace _ hfind).mpr
          (Or.inr ⟨htxs r (List.mem_cons_of_mem tx hr), hother r hr⟩)
      obtain ⟨hreplay, hsame, hrows⟩ := ih hmid hkept hrest hlast
      refine ⟨hreplay, hsame.trans hblocks, ?_⟩
      rw [hrows, htransactions, Table.replace_rows, List.map_map]
      apply List.map_congr_left
      intro r hr
      simp only [Function.comp_apply]
      by_cases hkey : r.hash = tx.hash
      · have heq : r = tx := s.transactions.eq_of_mem_of_key_eq hr htx hkey
        subst heq
        have hevicted : r.evicted config drop ∉ rest :=
          fun hmem => hother _ hmem rfl
        have hsamekey : r.hash = (r.evicted config drop).hash := rfl
        rw [if_pos hsamekey, if_neg hevicted, if_pos List.mem_cons_self]
      · have hne : r ≠ tx := fun heq => hkey (heq ▸ rfl)
        have hkey' : ¬r.hash = (tx.evicted config drop).hash := hkey
        rw [if_neg hkey']
        simp [hne]

/-- The transactions of the block are undone, the others stay. -/
theorem orphanBlock_cases {config : Config} {drop : List String} {s s' : State}
    {block : MockBlock} (hs : ∀ address, balanceOf s address = replay s address)
    (h : orphanBlock config drop s block = some s') :
    (∀ address, balanceOf s' address = replay s' address) ∧
      s'.blocks = s.blocks.replace { block with isCanonical := false } ∧
      s'.transactions.rows = s.transactions.rows.map fun r =>
        if r.blockHash = some block.hash then r.evicted config drop else r := by
  unfold orphanBlock at h
  obtain ⟨mid, hmid, rfl⟩ := Option.map_eq_some_iff.mp h
  have hselect : ∀ r, r ∈ s.transactions.select (·.blockHash = some block.hash) ↔
      r ∈ s.transactions.rows ∧ r.blockHash = some block.hash := by
    intro r
    simp [Table.select]
  obtain ⟨hreplay, hblocks, hrows⟩ := evictTxs_replay hs
    (fun tx htx => ((hselect tx).mp htx).1)
    (s.transactions.nodup.sublist (List.filter_sublist.map _)) hmid
  refine ⟨hreplay, by rw [hblocks], ?_⟩
  rw [hrows]
  apply List.map_congr_left
  intro r hr
  simp [hselect, hr]

/-- The canonical blocks after the top one has been taken off. -/
theorem orphaned_mem {s : State} {block b : MockBlock} (htop : Top s block) :
    (b ∈ (s.blocks.replace { block with isCanonical := false }).rows ∧
      b.isCanonical = true) ↔
      b ∈ s.blocks.rows ∧ b.isCanonical = true ∧ b ≠ block := by
  have hfind : s.blocks.find? ({ block with isCanonical := false } : MockBlock).hash =
      some block := s.blocks.find?_of_mem htop.mem
  rw [Table.mem_replace _ hfind]
  constructor
  · rintro ⟨rfl | ⟨hb, hkey⟩, hcanonical⟩
    · simp at hcanonical
    · exact ⟨hb, hcanonical, fun heq => hkey (heq ▸ rfl)⟩
  · rintro ⟨hb, hcanonical, hne⟩
    refine ⟨Or.inr ⟨hb, ?_⟩, hcanonical⟩
    exact fun hkey => hne (s.blocks.eq_of_mem_of_key_eq hb htop.mem hkey)

theorem orphanBlock_consistent {config : Config} {drop : List String} {s s' : State}
    {block : MockBlock} (hs : Consistent s) (htop : Top s block)
    (h : orphanBlock config drop s block = some s') : Consistent s' := by
  obtain ⟨hreplay, hblocks, hrows⟩ := orphanBlock_cases hs.balances h
  have hmem : ∀ b, (b ∈ s'.blocks.rows ∧ b.isCanonical = true) ↔
      b ∈ s.blocks.rows ∧ b.isCanonical = true ∧ b ≠ block := by
    intro b
    rw [hblocks]
    exact orphaned_mem htop
  have hbelow : ∀ b ∈ s.blocks.rows, b.isCanonical = true → b ≠ block →
      b.number < block.number := by
    intro b hb hcanonical hne
    have hle := htop.highest b hb hcanonical
    have hnumber : b.number ≠ block.number := fun heq =>
      hne (hs.linked.height_unique b hb block htop.mem hcanonical htop.canonical heq)
    omega
  refine ⟨⟨?_, ?_, ?_⟩, ?_, hreplay, ?_⟩
  · intro b hb b' hb' hcanonical hcanonical' hnumber
    obtain ⟨hold, _⟩ := (hmem b).mp ⟨hb, hcanonical⟩
    obtain ⟨hold', _⟩ := (hmem b').mp ⟨hb', hcanonical'⟩
    exact hs.linked.height_unique b hold b' hold' hcanonical hcanonical' hnumber
  · intro b hb hcanonical
    obtain ⟨hold, _⟩ := (hmem b).mp ⟨hb, hcanonical⟩
    exact hs.linked.height_positive b hold hcanonical
  · intro b hb hcanonical hgenesis
    obtain ⟨hold, _, hne⟩ := (hmem b).mp ⟨hb, hcanonical⟩
    obtain ⟨b', hb', hcanonical', hnumber, hhash⟩ :=
      hs.linked.parent b hold hcanonical hgenesis
    have hlt := hbelow b hold hcanonical hne
    have hne' : b' ≠ block := by
      intro heq
      rw [heq] at hnumber
      omega
    have hkept := (hmem b').mpr ⟨hb', hcanonical', hne'⟩
    exact ⟨b', hkept.1, hcanonical', hnumber, hhash⟩
  · intro tx htx
    rw [hrows] at htx
    obtain ⟨old, hold, rfl⟩ := List.mem_map.mp htx
    split
    next =>
      have hplace := old.evicted_place config drop
      unfold Placed
      rcases hplace.1 with hstatus | hstatus
      · simpa [hstatus] using hplace.2
      · simpa [hstatus] using hplace.2
    next hother =>
      have hplaced := hs.placed old hold
      have hkept : ∀ b ∈ s.blocks.rows, b.isCanonical = true →
          old.blockHash = some b.hash → b ∈ s'.blocks.rows := by
        intro b hb hcanonical hhash
        have hne : b ≠ block := fun heq => hother (heq ▸ hhash)
        exact ((hmem b).mpr ⟨hb, hcanonical, hne⟩).1
      unfold Placed at hplaced ⊢
      cases hstatus : old.status with
      | pending => simpa [hstatus] using hplaced
      | dropped => simpa [hstatus] using hplaced
      | mined =>
          simp only [hstatus] at hplaced ⊢
          obtain ⟨b, hb, hcanonical, hhash, hnumber⟩ := hplaced
          exact ⟨b, hkept b hb hcanonical hhash, hcanonical, hhash, hnumber⟩
      | failed =>
          simp only [hstatus] at hplaced ⊢
          obtain ⟨b, hb, hcanonical, hhash, hnumber⟩ := hplaced
          exact ⟨b, hkept b hb hcanonical hhash, hcanonical, hhash, hnumber⟩
  · intro height address
    -- what is left was executed below the block
    have hsame : replayUpTo s' height address =
        replayUpTo s (min height (block.number - 1)) address := by
      unfold replayUpTo Table.total
      rw [hrows, List.map_map]
      congr 1
      apply List.map_congr_left
      intro tx htx
      have hgenesis : 1 ≤ block.number :=
        hs.linked.height_positive block htop.mem htop.canonical
      simp only [Function.comp_apply]
      by_cases hstatus : tx.status = .mined
      · have hplaced := hs.placed tx htx
        simp only [Placed, hstatus] at hplaced
        obtain ⟨b, hb, hcanonical, hhash, hnumber⟩ := hplaced
        by_cases hblock : tx.blockHash = some block.hash
        · have heq : b = block := by
            apply s.blocks.eq_of_mem_of_key_eq hb htop.mem
            rw [hblock] at hhash
            exact (Option.some.inj hhash).symm
          have habove : ¬block.number ≤ min height (block.number - 1) := by omega
          rw [if_pos hblock]
          simp [MockTx.minedUpTo, tx.evicted_not_mined config drop, hnumber, heq,
            habove, -le_inf_iff]
        · have hne : b ≠ block := fun heq => hblock (heq ▸ hhash)
          have hlt := hbelow b hb hcanonical hne
          have hiff : b.number ≤ height ↔ b.number ≤ min height (block.number - 1) := by
            omega
          rw [if_neg hblock]
          simp [MockTx.minedUpTo, hnumber, hiff, -le_inf_iff]
      · have hnot : (if tx.blockHash = some block.hash then tx.evicted config drop
            else tx).status ≠ .mined := by
          split
          · exact tx.evicted_not_mined config drop
          · exact hstatus
        simp [MockTx.minedUpTo, hnot, hstatus]
    rw [hsame]
    exact hs.solvent _ address

/-- What taking off one top block keeps is kept by a reorg: its blocks are
taken off from the top, and the genesis block stays. -/
theorem orphanTop_induction {config : Config} {depth : Nat} {drop : List String}
    {P : State → Prop} {s s' : State} (hs : Consistent s) (hP : P s)
    (hstep : ∀ s s' block, Consistent s → P s → Top s block →
      genesisNumber < block.number → orphanBlock config drop s block = some s' → P s')
    (h : orphanTop config depth drop s = some s') : Consistent s' ∧ P s' := by
  have hfold : ∀ (lowest : Nat) (blocks : List MockBlock) (s : State),
      genesisNumber < lowest → Consistent s → P s → blocks.Nodup →
      blocks.Pairwise (fun b b' => b'.number ≤ b.number) →
      (∀ b, b ∈ blocks ↔
        b ∈ s.blocks.rows ∧ b.isCanonical = true ∧ lowest ≤ b.number) →
      blocks.foldlM (orphanBlock config drop) s = some s' → Consistent s' ∧ P s' := by
    intro lowest blocks
    induction blocks with
    | nil =>
        intro s _ hs hP _ _ _ hfold
        simp only [List.foldlM_nil, pure, Option.some.injEq] at hfold
        subst hfold
        exact ⟨hs, hP⟩
    | cons block rest ih =>
        intro s hgenesis hs hP hnodup hsorted hmem hfold
        rw [List.foldlM_cons] at hfold
        obtain ⟨mid, hfirst, hlast⟩ := Option.bind_eq_some_iff.mp hfold
        obtain ⟨hblock, hcanonical, hlow⟩ := (hmem block).mp List.mem_cons_self
        have htop : Top s block := by
          refine ⟨hblock, hcanonical, ?_⟩
          intro b hb hcanonical'
          by_cases hb' : lowest ≤ b.number
          · rcases List.mem_cons.mp ((hmem b).mpr ⟨hb, hcanonical', hb'⟩) with rfl | hrest
            · exact le_rfl
            · exact (List.pairwise_cons.mp hsorted).1 b hrest
          · omega
        obtain ⟨_, hblocks, _⟩ := orphanBlock_cases hs.balances hfirst
        obtain ⟨hfresh, hnodup'⟩ := List.nodup_cons.mp hnodup
        apply ih mid hgenesis (orphanBlock_consistent hs htop hfirst)
          (hstep s mid block hs hP htop (by omega) hfirst) hnodup'
          (List.pairwise_cons.mp hsorted).2 _ hlast
        intro b
        have hkept := @orphaned_mem s block b htop
        rw [← hblocks] at hkept
        constructor
        · intro hrest
          obtain ⟨hb, hcanonical', hlow'⟩ :=
            (hmem b).mp (List.mem_cons_of_mem block hrest)
          have hne : b ≠ block := fun heq => hfresh (heq ▸ hrest)
          obtain ⟨hb', _⟩ := hkept.mpr ⟨hb, hcanonical', hne⟩
          exact ⟨hb', hcanonical', hlow'⟩
        · rintro ⟨hb, hcanonical', hlow'⟩
          obtain ⟨hold, _, hne⟩ := hkept.mp ⟨hb, hcanonical'⟩
          have hmember := (hmem b).mpr ⟨hold, hcanonical', hlow'⟩
          exact (List.mem_cons.mp hmember).resolve_left hne
  unfold orphanTop victims at h
  cases hhead : head? s with
  | none =>
      simp only [hhead, List.foldlM_nil, pure, Option.some.injEq] at h
      subst h
      exact ⟨hs, hP⟩
  | some head =>
      simp only [hhead] at h
      apply hfold (max (genesisNumber + 1) (head.number + 1 - depth)) _ s _ hs hP _
        (List.pairwise_insertionSort (fun b b' : MockBlock => b'.number ≤ b.number) _) _ h
      · omega
      · rw [(List.perm_insertionSort _ _).nodup_iff]
        exact s.blocks.nodup.of_map.sublist List.filter_sublist
      · intro b
        rw [List.mem_insertionSort]
        simp [Table.select]

/-! ## Every step -/

theorem empty_consistent : Consistent State.empty := by
  refine ⟨⟨?_, ?_, ?_⟩, ?_, ?_, ?_⟩
  · intro b hb
    simp [State.empty] at hb
  · intro b hb
    simp [State.empty] at hb
  · intro b hb
    simp [State.empty] at hb
  · intro tx htx
    simp [State.empty] at htx
  · intro address
    rfl
  · intro height address
    exact le_rfl

theorem Consistent.congr {s s' : State} (hs : Consistent s) (hblocks : s'.blocks = s.blocks)
    (htransactions : s'.transactions = s.transactions)
    (hbalances : s'.balances = s.balances) : Consistent s' := by
  obtain ⟨blocks, transactions, balances, faults, clock⟩ := s
  obtain ⟨blocks', transactions', balances', faults', clock'⟩ := s'
  obtain rfl : blocks' = blocks := hblocks
  obtain rfl : transactions' = transactions := htransactions
  obtain rfl : balances' = balances := hbalances
  exact ⟨⟨hs.linked.height_unique, hs.linked.height_positive, hs.linked.parent⟩,
    hs.placed, hs.balances, hs.solvent⟩

/-- Submitting adds one pending transaction, or nothing. -/
theorem submit_cases (config : Config) (isMint : Bool) (request : SendRequest)
    (s : State) :
    (submit config isMint request s).2 = s ∨
      ∃ tx transactions, s.transactions.insert? tx = some transactions ∧
        tx.hash = txHashOf config request.clientRef ∧ tx.status = .pending ∧
        tx.blockNumber = none ∧ tx.blockHash = none ∧ tx.logIndex = none ∧
        (submit config isMint request s).2 = { s with transactions } := by
  unfold submit
  split
  · exact Or.inl rfl
  · split
    · exact Or.inl rfl
    · split
      next fromAddress toAddress _ _ =>
        split
        · dsimp only
          cases hinsert : s.transactions.insert? _ with
          | none => exact Or.inl rfl
          | some transactions =>
              exact Or.inr ⟨_, transactions, hinsert, rfl, rfl, rfl, rfl, rfl, rfl⟩
        · exact Or.inl rfl
      next => exact Or.inl rfl

theorem submit_blocks (config : Config) (isMint : Bool) (request : SendRequest) (s : State) :
    (submit config isMint request s).2.blocks = s.blocks := by
  rcases submit_cases config isMint request s with hsame | hnew
  · rw [hsame]
  · obtain ⟨tx, transactions, _, _, _, _, _, _, hs'⟩ := hnew
    rw [hs']

theorem submit_consistent {config : Config} {isMint : Bool} {request : SendRequest}
    {s : State} (hs : Consistent s) :
    Consistent (submit config isMint request s).2 := by
  rcases submit_cases config isMint request s with hsame | hnew
  · rw [hsame]
    exact hs
  · obtain ⟨tx, transactions, hinsert, _, hpending, hnumber, hhash, hindex, hs'⟩ := hnew
    rw [hs']
    have hreplay : ∀ address, replay { s with transactions } address = replay s address := by
      intro address
      unfold replay
      rw [Table.total_insert? hinsert]
      simp [hpending]
    refine ⟨⟨hs.linked.height_unique, hs.linked.height_positive, hs.linked.parent⟩,
      ?_, ?_, ?_⟩
    · intro r hr
      rcases (Table.mem_insert? hinsert).mp hr with hr | rfl
      · exact (hs.placed r hr).of_blocks fun b hb _ => hb
      · simp [Placed, hpending, hnumber, hhash, hindex]
    · intro address
      rw [hreplay]
      exact hs.balances address
    · intro height address
      have hsame : replayUpTo { s with transactions } height address =
          replayUpTo s height address := by
        unfold replayUpTo
        rw [Table.total_insert? hinsert]
        simp [MockTx.minedUpTo, hpending]
      rw [hsame]
      exact hs.solvent height address

theorem ensureStarted_consistent {config : Config} {s : State} (hs : Consistent s) :
    Consistent (ensureStarted config s) := by
  unfold ensureStarted
  split
  next hempty =>
    cases hinsert : s.blocks.insert? ⟨hash config.digest ["genesis", config.network.val],
        genesisNumber, zeroHash, true⟩ with
    | none => exact hs.congr (by simp [hinsert]) rfl rfl
    | some blocks =>
        have hrows := Table.insert?_rows hinsert
        rw [hempty, List.nil_append] at hrows
        simp only [hinsert, Option.getD_some]
        refine ⟨⟨?_, ?_, ?_⟩, ?_, hs.balances, hs.solvent⟩
        · intro b hb b' hb' _ _ _
          simp only [hrows, List.mem_singleton] at hb hb'
          rw [hb, hb']
        · intro b hb _
          simp only [hrows, List.mem_singleton] at hb
          rw [hb]
        · intro b hb _ hgenesis
          simp only [hrows, List.mem_singleton] at hb
          rw [hb] at hgenesis
          simp at hgenesis
        · intro tx htx
          apply (hs.placed tx htx).of_blocks
          intro b hb _
          simp [hempty] at hb
  next => exact hs

theorem chainStep_consistent (config : Config) (s : State) (step : ChainStep)
    (hs : Consistent s) : Consistent (chainStep config step s) := by
  cases step with
  | ensureStarted => exact ensureStarted_consistent hs
  | tick now => exact hs.congr rfl rfl rfl
  | mineBlock draw =>
      simp only [chainStep]
      cases hmine : mineBlock config draw s with
      | none => exact hs
      | some s' => exact mineBlock_consistent hs hmine
  | orphan depth drop =>
      simp only [chainStep]
      cases horphan : orphanTop config depth drop s with
      | none => exact hs
      | some s' =>
          exact (orphanTop_induction (P := fun _ => True) hs trivial
            (fun _ _ _ _ _ _ _ _ => trivial) horphan).1
  | setFaults rpcAvailable haltMining failNextTransfers => exact hs.congr rfl rfl rfl
  | simulateDeposit toAddress amount clientRef => exact submit_consistent hs
  | sendTransfer request => exact submit_consistent hs

/-- A state the node reaches. -/
def Reachable (config : Config) (s : State) : Prop :=
  ∃ steps, s = runSteps (chainStep config) .empty steps

theorem reachable_consistent (config : Config) (steps : List ChainStep) :
    Consistent (runSteps (chainStep config) State.empty steps) :=
  runSteps_preserves (fun s step => chainStep_consistent config s step)
    empty_consistent steps

theorem Reachable.consistent {config : Config} {s : State} (h : Reachable config s) :
    Consistent s := by
  obtain ⟨steps, rfl⟩ := h
  exact reachable_consistent config steps

/-- The canonical blocks which contain the transaction of a reference. -/
def blocksOf (config : Config) (s : State) (clientRef : String) : List MockBlock :=
  s.blocks.select fun b => b.isCanonical && s.transactions.rows.any fun tx =>
    tx.hash = txHashOf config clientRef && tx.blockHash = some b.hash

/-- After every run of the node each balance is what the mined transactions
moved, and no transfer is executed twice. -/
theorem balances_are_replay (config : Config) (steps : List ChainStep) :
    let s := runSteps (chainStep config) State.empty steps
    (∀ address, balanceOf s address = replay s address) ∧
      (∀ address, 0 ≤ balanceOf s address) ∧
      ∀ clientRef,
        (s.transactions.select fun tx => tx.hash = txHashOf config clientRef).length ≤ 1 ∧
          (blocksOf config s clientRef).length ≤ 1 := by
  intro s
  have hs : Consistent s := reachable_consistent config steps
  refine ⟨hs.balances, hs.balance_nonneg, ?_⟩
  intro clientRef
  constructor
  · apply s.transactions.select_length_le_one
    intro tx _ tx' _ htx htx'
    simp only [decide_eq_true_eq] at htx htx'
    rw [htx, htx']
  · apply s.blocks.select_length_le_one
    intro b _ b' _ hb hb'
    simp only [Bool.and_eq_true, List.any_eq_true, decide_eq_true_eq] at hb hb'
    obtain ⟨_, tx, htx, hhash, hblock⟩ := hb
    obtain ⟨_, tx', htx', hhash', hblock'⟩ := hb'
    have heq := s.transactions.eq_of_mem_of_key_eq htx htx' (hhash.trans hhash'.symm)
    rw [heq, hblock'] at hblock
    exact (Option.some.inj hblock).symm

end CryptoWallet.MockChain
