import CryptoWallet.ChainView

/-!
# The canonical chain

At every moment the canonical blocks form one chain from the genesis block to
the head.  A reorg leaves it shorter between its own transaction and the blocks
of the new fork, but never without its genesis block, and whoever mines in the
meantime mines on top of what is left.
-/

namespace CryptoWallet.MockChain

/-- The genesis block is there once anything is, and was never orphaned. -/
structure GenesisKept (s : State) : Prop where
  kept : ∀ b ∈ s.blocks.rows, b.number = genesisNumber → b.isCanonical = true
  started : s.blocks.rows ≠ [] → ∃ b ∈ s.blocks.rows, b.number = genesisNumber

theorem GenesisKept.congr {s s' : State} (h : GenesisKept s)
    (hblocks : s'.blocks = s.blocks) : GenesisKept s' := by
  obtain ⟨hkept, hstarted⟩ := h
  rw [← hblocks] at hkept hstarted
  exact ⟨hkept, hstarted⟩

/-- The first block is a genesis block; later ones leave it alone. -/
theorem GenesisKept.insert {s s' : State} (h : GenesisKept s) {block : MockBlock}
    (hinsert : s.blocks.insert? block = some s'.blocks)
    (hcanonical : block.isCanonical = true)
    (hfirst : s.blocks.rows = [] → block.number = genesisNumber) : GenesisKept s' := by
  have hmem : ∀ b, b ∈ s'.blocks.rows ↔ b ∈ s.blocks.rows ∨ b = block :=
    fun b => Table.mem_insert? hinsert
  constructor
  · intro b hb hnumber
    rcases (hmem b).mp hb with hold | hnew
    · exact h.kept b hold hnumber
    · rw [hnew]
      exact hcanonical
  · intro _
    by_cases hempty : s.blocks.rows = []
    · exact ⟨block, (hmem block).mpr (Or.inr rfl), hfirst hempty⟩
    · obtain ⟨b, hb, hnumber⟩ := h.started hempty
      exact ⟨b, (hmem b).mpr (Or.inl hb), hnumber⟩

theorem GenesisKept.orphanBlock {config : Config} {drop : List String} {s s' : State}
    {block : MockBlock} (h : GenesisKept s) (hs : Consistent s) (htop : Top s block)
    (hblock : genesisNumber < block.number)
    (horphan : MockChain.orphanBlock config drop s block = some s') : GenesisKept s' := by
  obtain ⟨_, hblocks, _⟩ := orphanBlock_cases hs.balances horphan
  have hfind : s.blocks.find? ({ block with isCanonical := false } : MockBlock).hash =
      some block := s.blocks.find?_of_mem htop.mem
  constructor
  · intro b hb hnumber
    rw [hblocks] at hb
    rcases (Table.mem_replace _ hfind).mp hb with rfl | ⟨hold, _⟩
    · dsimp only at hnumber
      omega
    · exact h.kept b hold hnumber
  · intro _
    obtain ⟨b, hb, hnumber⟩ := h.started (List.ne_nil_of_mem htop.mem)
    refine ⟨b, ?_, hnumber⟩
    rw [hblocks]
    refine (Table.mem_replace _ hfind).mpr (Or.inr ⟨hb, ?_⟩)
    intro hkey
    have heq : b = block := s.blocks.eq_of_mem_of_key_eq hb htop.mem hkey
    rw [heq] at hnumber
    omega

theorem nextBlock_first (config : Config) (draw : Uuid) {s : State}
    (hempty : s.blocks.rows = []) :
    (nextBlock config draw s).number = genesisNumber := by
  have hhead : head? s = none := by
    simp [head?, Table.select, hempty]
  simp [nextBlock, hhead]

theorem ensureStarted_blocks (config : Config) (s : State) :
    (s.blocks.rows ≠ [] ∧ (ensureStarted config s).blocks = s.blocks) ∨
      ∃ genesis : MockBlock, genesis.number = genesisNumber ∧
        genesis.isCanonical = true ∧
        s.blocks.insert? genesis = some (ensureStarted config s).blocks := by
  unfold ensureStarted
  by_cases hempty : s.blocks.rows = []
  · rw [if_pos hempty]
    let genesis : MockBlock :=
      ⟨hash config.digest ["genesis", config.network.val], genesisNumber, zeroHash, true⟩
    have hfree : s.blocks.find? genesis.hash = none := by
      simp [Table.find?_eq_none_iff, hempty]
    obtain ⟨blocks, hinsert⟩ := s.blocks.exists_insert? genesis hfree
    exact Or.inr ⟨genesis, rfl, rfl, by simp [genesis, hinsert]⟩
  · rw [if_neg hempty]
    exact Or.inl ⟨hempty, rfl⟩

theorem chainStep_genesisKept (config : Config) (s : State) (step : ChainStep)
    (hs : Consistent s) (h : GenesisKept s) : GenesisKept (chainStep config step s) := by
  cases step with
  | ensureStarted =>
      rcases ensureStarted_blocks config s with
        ⟨_, hsame⟩ | ⟨genesis, hnumber, hcanonical, hinsert⟩
      · exact h.congr hsame
      · exact h.insert hinsert hcanonical fun _ => hnumber
  | tick now => exact h.congr rfl
  | mineBlock draw =>
      simp only [chainStep]
      cases hmine : mineBlock config draw s with
      | none => exact h
      | some s' =>
          obtain ⟨hinsert, _⟩ := mineBlock_rows hmine
          exact h.insert hinsert rfl (nextBlock_first config draw)
  | orphan depth drop =>
      simp only [chainStep]
      cases horphan : orphanTop config depth drop s with
      | none => exact h
      | some s' =>
          have hkept := orphanTop_induction (P := GenesisKept) hs h
            (fun _ _ _ hs₁ h₁ htop₁ hblock₁ horphan₁ =>
              h₁.orphanBlock hs₁ htop₁ hblock₁ horphan₁) horphan
          exact hkept.2
  | setFaults rpcAvailable haltMining failNextTransfers => exact h.congr rfl
  | simulateDeposit toAddress amount clientRef =>
      exact h.congr (submit_blocks config true _ s)
  | sendTransfer request => exact h.congr (submit_blocks config false request s)

theorem reachable_genesisKept (config : Config) (steps : List ChainStep) :
    GenesisKept (runSteps (chainStep config) State.empty steps) := by
  have hboth : Consistent (runSteps (chainStep config) State.empty steps) ∧
      GenesisKept (runSteps (chainStep config) State.empty steps) := by
    apply runSteps_preserves (I := fun s => Consistent s ∧ GenesisKept s)
    · rintro s step ⟨hs, h⟩
      exact ⟨chainStep_consistent config s step hs,
        chainStep_genesisKept config s step hs h⟩
    · refine ⟨empty_consistent, ⟨?_, ?_⟩⟩
      · intro b hb
        simp [State.empty] at hb
      · intro hstarted
        simp [State.empty] at hstarted
  exact hboth.2

theorem genesis_stays (config : Config) (s : State) (step : ChainStep)
    (hs : Consistent s) {genesis : MockBlock} (hgenesis : genesis ∈ s.blocks.rows)
    (hnumber : genesis.number = genesisNumber) :
    genesis ∈ (chainStep config step s).blocks.rows := by
  cases step with
  | ensureStarted =>
      simp only [chainStep]
      rcases ensureStarted_blocks config s with ⟨_, hsame⟩ | ⟨_, _, _, hinsert⟩
      · rw [hsame]
        exact hgenesis
      · exact (Table.mem_insert? hinsert).mpr (Or.inl hgenesis)
  | tick now => exact hgenesis
  | mineBlock draw =>
      simp only [chainStep]
      cases hmine : mineBlock config draw s with
      | none => exact hgenesis
      | some s' =>
          obtain ⟨hinsert, _⟩ := mineBlock_rows hmine
          exact (Table.mem_insert? hinsert).mpr (Or.inl hgenesis)
  | orphan depth drop =>
      simp only [chainStep]
      cases horphan : orphanTop config depth drop s with
      | none => exact hgenesis
      | some s' =>
          have hstays := orphanTop_induction (P := fun s' => genesis ∈ s'.blocks.rows)
            hs hgenesis ?_ horphan
          · exact hstays.2
          · intro s₁ s₂ block hs₁ hmem htop hblock horphan₁
            obtain ⟨_, hblocks, _⟩ := orphanBlock_cases hs₁.balances horphan₁
            have hfind : s₁.blocks.find?
                ({ block with isCanonical := false } : MockBlock).hash = some block :=
              s₁.blocks.find?_of_mem htop.mem
            rw [hblocks]
            refine (Table.mem_replace _ hfind).mpr (Or.inr ⟨hmem, ?_⟩)
            intro hkey
            have heq : genesis = block := s₁.blocks.eq_of_mem_of_key_eq hmem htop.mem hkey
            rw [heq] at hnumber
            omega
  | setFaults rpcAvailable haltMining failNextTransfers => exact hgenesis
  | simulateDeposit toAddress amount clientRef =>
      simp only [chainStep, submit_blocks]
      exact hgenesis
  | sendTransfer request =>
      simp only [chainStep, submit_blocks]
      exact hgenesis

/-! ## The chain as a whole -/

theorem GenesisKept.head {s : State} (h : GenesisKept s) (hstarted : s.blocks.rows ≠ []) :
    ∃ head, head? s = some head := by
  obtain ⟨b, hb, hnumber⟩ := h.started hstarted
  have hcanonical := h.kept b hb hnumber
  cases hhead : head? s with
  | some head => exact ⟨head, rfl⟩
  | none => simp [head?_none hhead b hb] at hcanonical

/-- A node which was started once has blocks ever after. -/
theorem started_once (config : Config) {steps : List ChainStep}
    (hstart : ChainStep.ensureStarted ∈ steps) :
    (runSteps (chainStep config) State.empty steps).blocks.rows ≠ [] := by
  obtain ⟨before, after, rfl⟩ := List.append_of_mem hstart
  rw [runSteps_append, runSteps_cons]
  have hs := reachable_consistent config before
  have hstarted := chainStep_consistent config _ .ensureStarted hs
  obtain ⟨hlater, _⟩ := Later.run config hstarted after
  have hblock : ∃ b, b ∈ (ensureStarted config
      (runSteps (chainStep config) State.empty before)).blocks.rows := by
    rcases ensureStarted_blocks config (runSteps (chainStep config) State.empty before)
      with ⟨hstarted, hsame⟩ | ⟨genesis, _, _, hinsert⟩
    · rw [hsame]
      exact List.exists_mem_of_ne_nil _ hstarted
    · exact ⟨genesis, (Table.mem_insert? hinsert).mpr (Or.inr rfl)⟩
  obtain ⟨b, hb⟩ := hblock
  obtain ⟨b', hb', _⟩ := hlater.hash_kept b hb
  exact List.ne_nil_of_mem hb'

/-- A transaction was executed in the canonical block it points to. -/
def Executed (s : State) (tx : MockTx) : Prop :=
  ∃ b ∈ s.blocks.rows, b.isCanonical = true ∧ tx.blockHash = some b.hash ∧
    tx.blockNumber = some b.number

/-- The node reports the success of a transaction in a block. -/
def Succeeded (s : State) (txHash blockHash : ChainHash) : Prop :=
  ∃ receipt, getReceipt s txHash = .ok (some receipt) ∧ receipt.status = 1 ∧
    receipt.blockHash = blockHash

/-- The logs of the block of a transaction contain its own. -/
def Logged (config : Config) (s : State) (tx : MockTx) (blockHash : ChainHash) : Prop :=
  ∃ number logs, tx.blockNumber = some number ∧
    getTransferLogs config s number number [] = .ok logs ∧
    ∃ entry ∈ logs, entry.txHash = tx.hash ∧ entry.blockHash = blockHash

theorem Placed.executed {s : State} {tx : MockTx} (h : Placed s tx) :
    (tx.status = .mined ∨ tx.status = .failed) ↔ Executed s tx := by
  unfold Placed at h
  cases hstatus : tx.status with
  | pending =>
      simp only [hstatus] at h
      simp [Executed, h.1]
  | dropped =>
      simp only [hstatus] at h
      simp [Executed, h.1]
  | mined =>
      simp only [hstatus] at h
      simpa [Executed] using h
  | failed =>
      simp only [hstatus] at h
      simpa [Executed] using h

theorem Placed.unplaced {s : State} {tx : MockTx} (h : Placed s tx)
    (hstatus : tx.status = .pending ∨ tx.status = .dropped) :
    tx.blockNumber = none ∧ tx.blockHash = none ∧ tx.logIndex = none := by
  rcases hstatus with hstatus | hstatus
  · simpa [Placed, hstatus] using h
  · simpa [Placed, hstatus] using h

theorem succeeded_iff (config : Config) {s : State} (hs : Consistent s) {tx : MockTx}
    (htx : tx ∈ s.transactions.rows) (blockHash : ChainHash) :
    Succeeded s tx.hash blockHash ↔ assertRpcUp s = .ok () ∧
      ∃ block, Emitted config s tx block (tx.log config block) ∧
        block.hash = blockHash := by
  have hfind := s.transactions.find?_of_mem htx
  constructor
  · rintro ⟨receipt, hreceipt, hstatus, hhash⟩
    have hup : assertRpcUp s = .ok () := by
      cases hrpc : assertRpcUp s with
      | ok _ => rfl
      | error e => simp [getReceipt, hrpc, bind, Except.bind] at hreceipt
    refine ⟨hup, ?_⟩
    rw [getReceipt_up hup] at hreceipt
    simp only [receiptOf, hfind, Except.ok.injEq] at hreceipt
    cases hblock : canonicalBlock s tx with
    | none => simp [hblock] at hreceipt
    | some block =>
        simp only [hblock, Option.ite_none_left_eq_some, Option.some.injEq] at hreceipt
        obtain ⟨_, rfl⟩ := hreceipt
        have hmined : tx.status = .mined := by
          by_contra hnot
          simp [hnot] at hstatus
        obtain ⟨hmem, hcanonical, hplace⟩ := canonicalBlock_iff.mp hblock
        exact ⟨block, ⟨htx, hmined, hmem, hcanonical, hplace, rfl⟩, hhash⟩
  · rintro ⟨hup, block, hemitted, hhash⟩
    have hreceipt := getReceipt_onChain hs ⟨tx, block, hemitted⟩ (getReceipt_up hup tx.hash)
    refine ⟨⟨tx.hash, block.number, block.hash, 1⟩, ?_, rfl, hhash⟩
    rw [getReceipt_up hup, hreceipt]
    rfl

theorem logged_iff {config : Config} {s : State} (hs : Consistent s) {tx : MockTx}
    (htx : tx ∈ s.transactions.rows) (blockHash : ChainHash) :
    Logged config s tx blockHash ↔ assertRpcUp s = .ok () ∧
      ∃ block, Emitted config s tx block (tx.log config block) ∧
        block.hash = blockHash := by
  constructor
  · rintro ⟨number, logs, _, hlogs, entry, hentry, hhash, hblock⟩
    have hup : assertRpcUp s = .ok () := by
      cases hrpc : assertRpcUp s with
      | ok _ => rfl
      | error e => simp [getTransferLogs, hrpc, bind, Except.bind] at hlogs
    refine ⟨hup, ?_⟩
    obtain ⟨⟨tx', block, hemitted⟩, _⟩ := (mem_getTransferLogs hs hlogs).mp hentry
    have hentryEq := hemitted.entry_eq
    have hsame : tx' = tx := by
      apply s.transactions.eq_of_mem_of_key_eq hemitted.tx_mem htx
      rw [← hhash, hentryEq]
      rfl
    subst hsame
    refine ⟨block, hentryEq ▸ hemitted, ?_⟩
    rw [← hblock, hentryEq]
    rfl
  · rintro ⟨hup, block, hemitted, hhash⟩
    have hplaced := (hs.placed tx htx).executed.mp (Or.inl hemitted.mined)
    obtain ⟨b, hb, _, hplace, hnumber⟩ := hplaced
    have heq : b = block := s.blocks.eq_of_mem_of_key_eq hb hemitted.block_mem
      (Option.some.inj (hplace.symm.trans hemitted.blockHash))
    rw [heq] at hnumber
    obtain ⟨logs, hlogs, hmem⟩ :=
      (shows_view config hs hup).logs block.number block.number []
    refine ⟨block.number, logs, hnumber, hlogs, tx.log config block, ?_, rfl, hhash⟩
    rw [mem_getTransferLogs hs hlogs]
    exact ⟨⟨tx, block, hemitted⟩, ⟨le_rfl, le_rfl⟩, Or.inl rfl⟩

/-- After every run of the node the canonical blocks are one chain on the
genesis block, and blocks, receipts and logs tell the same of a transaction. -/
theorem canonical_chain_integrity (config : Config) (steps : List ChainStep) :
    let s := runSteps (chainStep config) State.empty steps
    (ChainStep.ensureStarted ∈ steps → ∃ head, head? s = some head) ∧
      (∀ head, head? s = some head →
        (∀ number, genesisNumber ≤ number → number ≤ head.number →
          ∃! b, b ∈ s.blocks.rows ∧ b.isCanonical = true ∧ b.number = number) ∧
        ∀ b ∈ s.blocks.rows, b.isCanonical = true →
          genesisNumber ≤ b.number ∧ b.number ≤ head.number) ∧
      (∀ b ∈ s.blocks.rows, b.isCanonical = true → genesisNumber < b.number →
        ∃ parent ∈ s.blocks.rows, parent.isCanonical = true ∧
          parent.number + 1 = b.number ∧ b.parentHash = parent.hash) ∧
      (∀ before, before <+: steps →
        ∀ genesis ∈ (runSteps (chainStep config) State.empty before).blocks.rows,
          genesis.number = genesisNumber →
          genesis ∈ s.blocks.rows ∧ genesis.isCanonical = true) ∧
      ∀ tx ∈ s.transactions.rows,
        ((tx.status = .mined ∨ tx.status = .failed) ↔ Executed s tx) ∧
        (tx.status = .pending ∨ tx.status = .dropped →
          tx.blockNumber = none ∧ tx.blockHash = none ∧ tx.logIndex = none) ∧
        ∀ blockHash, Succeeded s tx.hash blockHash ↔ Logged config s tx blockHash := by
  intro s
  have hs : Consistent s := reachable_consistent config steps
  have hgenesis : GenesisKept s := reachable_genesisKept config steps
  refine ⟨?_, ?_, ?_, ?_, ?_⟩
  · intro hstart
    exact hgenesis.head (started_once config hstart)
  · intro head hhead
    have htop := head?_top hhead
    constructor
    · intro number hlow hhigh
      obtain ⟨b, hb, hcanonical, hnumber⟩ :=
        hs.linked.exists_at htop.mem htop.canonical hlow hhigh
      refine ⟨b, ⟨hb, hcanonical, hnumber⟩, ?_⟩
      rintro b' ⟨hb', hcanonical', hnumber'⟩
      exact hs.linked.height_unique b' hb' b hb hcanonical' hcanonical
        (hnumber'.trans hnumber.symm)
    · intro b hb hcanonical
      exact ⟨hs.linked.height_positive b hb hcanonical, htop.highest b hb hcanonical⟩
  · intro b hb hcanonical hnumber
    obtain ⟨parent, hparent, hcanonical', hbelow, hhash⟩ :=
      hs.linked.parent b hb hcanonical hnumber
    exact ⟨parent, hparent, hcanonical', hbelow, hhash.symm⟩
  · rintro before ⟨after, hsplit⟩ genesis hmem hnumber
    have hstays : genesis ∈ s.blocks.rows := by
      have hrun : Consistent s ∧ genesis ∈ s.blocks.rows := by
        simp only [s, ← hsplit, runSteps_append]
        apply runSteps_preserves (I := fun s => Consistent s ∧ genesis ∈ s.blocks.rows)
        · rintro s₁ step ⟨hs₁, hmem₁⟩
          exact ⟨chainStep_consistent config s₁ step hs₁,
            genesis_stays config s₁ step hs₁ hmem₁ hnumber⟩
        · exact ⟨reachable_consistent config before, hmem⟩
      exact hrun.2
    exact ⟨hstays, hgenesis.kept genesis hstays hnumber⟩
  · intro tx htx
    have hplaced := hs.placed tx htx
    refine ⟨hplaced.executed, hplaced.unplaced, ?_⟩
    intro blockHash
    rw [succeeded_iff config hs htx, logged_iff hs htx]

end CryptoWallet.MockChain
