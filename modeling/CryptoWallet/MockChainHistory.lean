import CryptoWallet.MockChainReplay

/-!
# The past of the simulated chain

A block which was orphaned never becomes canonical again, as a new block has a
new hash.  So a block which is canonical at two times was canonical in between,
with everything below it and with the transactions in it.
-/

namespace CryptoWallet.MockChain

/-- The same submission, at two times. -/
structure MockTx.Same (tx tx' : MockTx) : Prop where
  hash : tx'.hash = tx.hash
  fromAddress : tx'.fromAddress = tx.fromAddress
  toAddress : tx'.toAddress = tx.toAddress
  amount : tx'.amount = tx.amount
  asset : tx'.asset = tx.asset

theorem MockTx.Same.refl (tx : MockTx) : tx.Same tx := ⟨rfl, rfl, rfl, rfl, rfl⟩

theorem MockTx.Same.trans {tx tx' tx'' : MockTx} (h : tx.Same tx') (h' : tx'.Same tx'') :
    tx.Same tx'' :=
  ⟨h'.hash.trans h.hash, h'.fromAddress.trans h.fromAddress,
    h'.toAddress.trans h.toAddress, h'.amount.trans h.amount, h'.asset.trans h.asset⟩

theorem MockTx.IncludedAs.same {tx tx' : MockTx} {block : MockBlock}
    (h : tx.IncludedAs block tx') : tx.Same tx' := by
  cases h <;> exact ⟨rfl, rfl, rfl, rfl, rfl⟩

/-- The second state is one the node reaches from the first. -/
structure Later (s s' : State) : Prop where
  hash_kept : ∀ b ∈ s.blocks.rows, ∃ b' ∈ s'.blocks.rows, b'.hash = b.hash
  /-- A canonical block is new or was canonical before. -/
  canonical_before : ∀ b' ∈ s'.blocks.rows, b'.isCanonical = true →
    ∀ b ∈ s.blocks.rows, b.hash = b'.hash → b = b'
  /-- Blocks are taken off from the top. -/
  below_kept : ∀ b ∈ s.blocks.rows, b.isCanonical = true → b ∈ s'.blocks.rows →
    ∀ b' ∈ s.blocks.rows, b'.isCanonical = true → b'.number ≤ b.number →
      b' ∈ s'.blocks.rows
  /-- Nothing enters a block after it was mined. -/
  contents_before : ∀ tx ∈ s'.transactions.rows, ∀ b ∈ s.blocks.rows,
    tx.blockHash = some b.hash → tx ∈ s.transactions.rows
  submitted_kept : ∀ tx ∈ s.transactions.rows, ∃ tx' ∈ s'.transactions.rows, tx.Same tx'

theorem Later.refl (s : State) : Later s s := by
  refine ⟨fun b hb => ⟨b, hb, rfl⟩, ?_, fun _ _ _ _ b' hb' _ _ => hb',
    fun tx htx _ _ _ => htx, fun tx htx => ⟨tx, htx, .refl tx⟩⟩
  intro b' hb' _ b hb hhash
  exact s.blocks.eq_of_mem_of_key_eq hb hb' hhash

/-- Nothing but balances, faults and the clock has changed since. -/
theorem Later.congr {s s' s'' : State} (h : Later s s') (hblocks : s''.blocks = s'.blocks)
    (htransactions : s''.transactions = s'.transactions) : Later s s'' := by
  obtain ⟨hhash, hcanonical, hbelow, hcontents, hsubmitted⟩ := h
  rw [← hblocks] at hhash hcanonical hbelow
  rw [← htransactions] at hcontents hsubmitted
  exact ⟨hhash, hcanonical, hbelow, hcontents, hsubmitted⟩

theorem Later.trans {s s' s'' : State} (h : Later s s') (h' : Later s' s'') :
    Later s s'' := by
  have hback : ∀ b ∈ s.blocks.rows, ∀ b'' ∈ s''.blocks.rows, b''.isCanonical = true →
      b.hash = b''.hash → b'' ∈ s'.blocks.rows := by
    intro b hb b'' hb'' hcanonical hhash
    obtain ⟨b', hb', hhash'⟩ := h.hash_kept b hb
    have heq := h'.canonical_before b'' hb'' hcanonical b' hb' (hhash'.trans hhash)
    rw [← heq]
    exact hb'
  refine ⟨?_, ?_, ?_, ?_, ?_⟩
  · intro b hb
    obtain ⟨b', hb', hhash⟩ := h.hash_kept b hb
    obtain ⟨b'', hb'', hhash'⟩ := h'.hash_kept b' hb'
    exact ⟨b'', hb'', hhash'.trans hhash⟩
  · intro b'' hb'' hcanonical b hb hhash
    exact h.canonical_before b'' (hback b hb b'' hb'' hcanonical hhash) hcanonical b hb hhash
  · intro b hb hcanonical hkept b' hb' hcanonical' hle
    have hmid := hback b hb b hkept hcanonical rfl
    have hmid' := h.below_kept b hb hcanonical hmid b' hb' hcanonical' hle
    exact h'.below_kept b hmid hcanonical hkept b' hmid' hcanonical' hle
  · intro tx htx b hb hhash
    obtain ⟨b', hb', hhash'⟩ := h.hash_kept b hb
    rw [← hhash'] at hhash
    have hmid := h'.contents_before tx htx b' hb' hhash
    rw [hhash'] at hhash
    exact h.contents_before tx hmid b hb hhash
  · intro tx htx
    obtain ⟨tx', htx', hsame⟩ := h.submitted_kept tx htx
    obtain ⟨tx'', htx'', hsame'⟩ := h'.submitted_kept tx' htx'
    exact ⟨tx'', htx'', hsame.trans hsame'⟩

/-! ## Each step -/

/-- The rows while a block is filled. -/
theorem includeTxs_rows {block : MockBlock} {txs : List MockTx} {s s' : State}
    {logIndex : Nat} (htxs : ∀ tx ∈ txs, tx ∈ s.transactions.rows)
    (hnodup : (txs.map MockTx.hash).Nodup)
    (h : includeTxs block txs s logIndex = some s') :
    s'.blocks = s.blocks ∧
      (∀ tx ∈ s'.transactions.rows,
        tx ∈ s.transactions.rows ∨ tx.blockHash = some block.hash) ∧
      ∀ tx ∈ s.transactions.rows, ∃ tx' ∈ s'.transactions.rows, tx.Same tx' := by
  induction txs generalizing s logIndex with
  | nil =>
      simp only [includeTxs, Option.some.injEq] at h
      subst h
      exact ⟨rfl, fun tx htx => Or.inl htx, fun tx htx => ⟨tx, htx, .refl tx⟩⟩
  | cons tx rest ih =>
      simp only [includeTxs] at h
      cases hfirst : includeTx block s logIndex tx with
      | none => simp [hfirst] at h
      | some result =>
          obtain ⟨mid, logIndex'⟩ := result
          simp only [hfirst] at h
          obtain ⟨tx', hincluded, hblocks, htransactions, _⟩ := includeTx_cases hfirst
          have hfind := s.transactions.find?_of_mem (htxs tx List.mem_cons_self)
          rw [← hincluded.hash_eq] at hfind
          have hmem : ∀ r, r ∈ mid.transactions.rows ↔
              r = tx' ∨ (r ∈ s.transactions.rows ∧ r.hash ≠ tx'.hash) := by
            intro r
            rw [htransactions]
            exact Table.mem_replace _ hfind
          obtain ⟨hfresh, hrest⟩ := List.nodup_cons.mp hnodup
          have hkept : ∀ r ∈ rest, r ∈ mid.transactions.rows := by
            intro r hr
            refine (hmem r).mpr (Or.inr ⟨htxs r (List.mem_cons_of_mem tx hr), ?_⟩)
            rw [hincluded.hash_eq]
            exact fun heq => hfresh (heq ▸ List.mem_map_of_mem hr)
          obtain ⟨hsame, hback, hforth⟩ := ih hkept hrest h
          refine ⟨hsame.trans hblocks, ?_, ?_⟩
          · intro r hr
            rcases hback r hr with hmid | hnew
            · rcases (hmem r).mp hmid with rfl | ⟨hold, _⟩
              · exact Or.inr hincluded.place.2.1
              · exact Or.inl hold
            · exact Or.inr hnew
          · intro r hr
            by_cases hkey : r.hash = tx'.hash
            · have heq : r = tx :=
                s.transactions.eq_of_mem_of_key_eq hr (htxs tx List.mem_cons_self)
                  (hkey.trans hincluded.hash_eq)
              obtain ⟨r', hr', hlast⟩ := hforth tx' ((hmem tx').mpr (Or.inl rfl))
              rw [heq]
              exact ⟨r', hr', hincluded.same.trans hlast⟩
            · exact hforth r ((hmem r).mpr (Or.inr ⟨hr, hkey⟩))

theorem mineBlock_rows {config : Config} {draw : Uuid} {s s' : State}
    (h : mineBlock config draw s = some s') :
    s.blocks.insert? (nextBlock config draw s) = some s'.blocks ∧
      (∀ tx ∈ s'.transactions.rows, tx ∈ s.transactions.rows ∨
        tx.blockHash = some (nextBlock config draw s).hash) ∧
      ∀ tx ∈ s.transactions.rows, ∃ tx' ∈ s'.transactions.rows, tx.Same tx' := by
  unfold mineBlock at h
  cases hinsert : s.blocks.insert? (nextBlock config draw s) with
  | none => simp [hinsert] at h
  | some blocks =>
      simp only [hinsert] at h
      obtain ⟨hblocks, hrows⟩ := includeTxs_rows (s := { s with blocks })
        (fun tx htx => (pendingTxs_mem htx).1) (pendingTxs_nodup s) h
      exact ⟨congrArg some hblocks.symm, hrows⟩

theorem Later.mineBlock {config : Config} {draw : Uuid} {s s' s'' : State}
    (h : Later s s') (hmine : mineBlock config draw s' = some s'') : Later s s'' := by
  obtain ⟨hinsert, hback, hforth⟩ := mineBlock_rows hmine
  have hmem : ∀ b, b ∈ s''.blocks.rows ↔
      b ∈ s'.blocks.rows ∨ b = nextBlock config draw s' :=
    fun b => Table.mem_insert? hinsert
  -- the hash of the new block was not taken
  have hfresh : ∀ b ∈ s.blocks.rows, b.hash ≠ (nextBlock config draw s').hash := by
    intro b hb heq
    obtain ⟨b', hb', hhash⟩ := h.hash_kept b hb
    exact s'.blocks.find?_eq_none_iff.mp (Table.insert?_free hinsert) b' hb'
      (hhash.trans heq)
  have hold : ∀ b ∈ s.blocks.rows, ∀ b' ∈ s''.blocks.rows, b.hash = b'.hash →
      b' ∈ s'.blocks.rows := by
    intro b hb b' hb' hhash
    rcases (hmem b').mp hb' with hb' | rfl
    · exact hb'
    · exact (hfresh b hb hhash).elim
  refine ⟨?_, ?_, ?_, ?_, ?_⟩
  · intro b hb
    obtain ⟨b', hb', hhash⟩ := h.hash_kept b hb
    exact ⟨b', (hmem b').mpr (Or.inl hb'), hhash⟩
  · intro b' hb' hcanonical b hb hhash
    exact h.canonical_before b' (hold b hb b' hb' hhash) hcanonical b hb hhash
  · intro b hb hcanonical hb' b' hmember hcanonical' hle
    have hkept := h.below_kept b hb hcanonical (hold b hb b hb' rfl) b' hmember
      hcanonical' hle
    exact (hmem b').mpr (Or.inl hkept)
  · intro tx htx b hb hhash
    rcases hback tx htx with htx | hnew
    · exact h.contents_before tx htx b hb hhash
    · rw [hnew] at hhash
      exact (hfresh b hb (Option.some.inj hhash).symm).elim
  · intro tx htx
    obtain ⟨tx', htx', hsame⟩ := h.submitted_kept tx htx
    obtain ⟨tx'', htx'', hsame'⟩ := hforth tx' htx'
    exact ⟨tx'', htx'', hsame.trans hsame'⟩

theorem Later.orphanBlock {config : Config} {drop : List String} {s s' s'' : State}
    {block : MockBlock} (h : Later s s') (hs' : Consistent s') (htop : Top s' block)
    (horphan : orphanBlock config drop s' block = some s'') : Later s s'' := by
  obtain ⟨_, hblocks, hrows⟩ := orphanBlock_cases hs'.balances horphan
  have hmem : ∀ b, (b ∈ s''.blocks.rows ∧ b.isCanonical = true) ↔
      b ∈ s'.blocks.rows ∧ b.isCanonical = true ∧ b ≠ block := by
    intro b
    rw [hblocks]
    exact orphaned_mem htop
  refine ⟨?_, ?_, ?_, ?_, ?_⟩
  · intro b hb
    obtain ⟨b', hb', hhash⟩ := h.hash_kept b hb
    rw [hblocks, Table.replace_rows]
    refine ⟨_, List.mem_map_of_mem hb', ?_⟩
    split
    next hkey => exact hkey.symm.trans hhash
    next => exact hhash
  · intro b' hb' hcanonical b hb hhash
    obtain ⟨hold, _⟩ := (hmem b').mp ⟨hb', hcanonical⟩
    exact h.canonical_before b' hold hcanonical b hb hhash
  · intro b hb hcanonical hkept b' hb' hcanonical' hle
    obtain ⟨hold, _, hne⟩ := (hmem b).mp ⟨hkept, hcanonical⟩
    have hold' := h.below_kept b hb hcanonical hold b' hb' hcanonical' hle
    have hne' : b' ≠ block := by
      intro heq
      rw [heq] at hle
      have hbound := htop.highest b hold hcanonical
      exact hne (hs'.linked.height_unique b hold block htop.mem hcanonical htop.canonical
        (by omega))
    exact ((hmem b').mpr ⟨hold', hcanonical', hne'⟩).1
  · intro tx htx b hb hhash
    rw [hrows] at htx
    obtain ⟨old, hold, rfl⟩ := List.mem_map.mp htx
    split at hhash
    next => simp [MockTx.evicted] at hhash
    next hother =>
      rw [if_neg hother]
      exact h.contents_before old hold b hb hhash
  · intro tx htx
    obtain ⟨tx', htx', hsame⟩ := h.submitted_kept tx htx
    rw [hrows]
    refine ⟨_, List.mem_map_of_mem htx', hsame.trans ?_⟩
    split
    · exact ⟨rfl, rfl, rfl, rfl, rfl⟩
    · exact .refl tx'

theorem Later.submit {config : Config} {isMint : Bool} {request : SendRequest}
    {s s' : State} (h : Later s s') : Later s (submit config isMint request s').2 := by
  rcases submit_cases config isMint request s' with hsame | hnew
  · rw [hsame]
    exact h
  · obtain ⟨tx, transactions, hinsert, _, _, _, hhash, _, hs'⟩ := hnew
    rw [hs']
    refine ⟨h.hash_kept, h.canonical_before, h.below_kept, ?_, ?_⟩
    · intro r hr b hb hblock
      rcases (Table.mem_insert? hinsert).mp hr with hr | rfl
      · exact h.contents_before r hr b hb hblock
      · simp [hhash] at hblock
    · intro r hr
      obtain ⟨r', hr', hsame⟩ := h.submitted_kept r hr
      exact ⟨r', (Table.mem_insert? hinsert).mpr (Or.inl hr'), hsame⟩

theorem Later.ensureStarted {config : Config} {s s' : State} (h : Later s s') :
    Later s (ensureStarted config s') := by
  unfold MockChain.ensureStarted
  split
  next hempty =>
    have hnone : s.blocks.rows = [] := by
      rw [List.eq_nil_iff_forall_not_mem]
      intro b hb
      obtain ⟨b', hb', _⟩ := h.hash_kept b hb
      simp [hempty] at hb'
    refine ⟨?_, ?_, ?_, ?_, h.submitted_kept⟩
    · intro b hb
      simp [hnone] at hb
    · intro b' _ _ b hb
      simp [hnone] at hb
    · intro b hb
      simp [hnone] at hb
    · intro tx _ b hb
      simp [hnone] at hb
  next => exact h

theorem Later.step {config : Config} {s s' : State} (h : Later s s')
    (hs' : Consistent s') (step : ChainStep) : Later s (chainStep config step s') := by
  cases step with
  | ensureStarted => exact h.ensureStarted
  | tick now => exact h.congr rfl rfl
  | mineBlock draw =>
      simp only [chainStep]
      cases hmine : MockChain.mineBlock config draw s' with
      | none => exact h
      | some s'' => exact h.mineBlock hmine
  | orphan depth drop =>
      simp only [chainStep]
      cases horphan : orphanTop config depth drop s' with
      | none => exact h
      | some s'' =>
          exact (orphanTop_induction hs' h (fun s₁ s₂ block hs₁ hlater htop _ hblock =>
            hlater.orphanBlock hs₁ htop hblock) horphan).2
  | setFaults rpcAvailable haltMining failNextTransfers => exact h.congr rfl rfl
  | simulateDeposit toAddress amount clientRef => exact h.submit
  | sendTransfer request => exact h.submit

theorem Later.run (config : Config) {s : State} (hs : Consistent s)
    (steps : List ChainStep) :
    Later s (runSteps (chainStep config) s steps) ∧
      Consistent (runSteps (chainStep config) s steps) := by
  apply runSteps_preserves (I := fun s' => Later s s' ∧ Consistent s')
  · rintro s' step ⟨hlater, hs'⟩
    exact ⟨hlater.step hs' step, chainStep_consistent config s' step hs'⟩
  · exact ⟨.refl s, hs⟩

/-! ## What the node tells -/

theorem canonicalAt_iff {s : State} (hs : Consistent s) {number : Nat} {b : MockBlock} :
    canonicalAt s number = some b ↔
      b ∈ s.blocks.rows ∧ b.isCanonical = true ∧ b.number = number := by
  unfold canonicalAt
  constructor
  · intro h
    have hfound := List.find?_some h
    simp only [Bool.and_eq_true, decide_eq_true_eq] at hfound
    exact ⟨List.mem_of_find?_eq_some h, hfound.2, hfound.1⟩
  · rintro ⟨hb, hcanonical, hnumber⟩
    cases hfind : s.blocks.rows.find? fun b => b.number = number && b.isCanonical with
    | none =>
        have hnone := List.find?_eq_none.mp hfind b hb
        simp [hnumber, hcanonical] at hnone
    | some b' =>
        have hfound := List.find?_some hfind
        simp only [Bool.and_eq_true, decide_eq_true_eq] at hfound
        rw [hs.linked.height_unique b' (List.mem_of_find?_eq_some hfind) b hb hfound.2
          hcanonical (hfound.1.trans hnumber.symm)]

/-- There is a canonical block at every height below a canonical block. -/
theorem Linked.exists_at {s : State} (hs : Linked s) {b : MockBlock}
    (hb : b ∈ s.blocks.rows) (hcanonical : b.isCanonical = true) {number : Nat}
    (hpositive : genesisNumber ≤ number) (hle : number ≤ b.number) :
    ∃ b' ∈ s.blocks.rows, b'.isCanonical = true ∧ b'.number = number := by
  obtain ⟨gap, hgap⟩ := Nat.exists_eq_add_of_le hle
  induction gap generalizing b with
  | zero => exact ⟨b, hb, hcanonical, hgap⟩
  | succ gap ih =>
      obtain ⟨b', hb', hcanonical', hnumber, _⟩ := hs.parent b hb hcanonical (by omega)
      exact ih hb' hcanonical' (by omega) (by omega)

/-- Everything below a block of both states is in both states. -/
theorem Later.same_below {s s' : State} (h : Later s s') (hs : Consistent s)
    (hs' : Consistent s') {b b' : MockBlock} (hb : b ∈ s.blocks.rows)
    (hkept : b ∈ s'.blocks.rows) (hcanonical : b.isCanonical = true)
    (hb' : b' ∈ s'.blocks.rows) (hcanonical' : b'.isCanonical = true)
    (hle : b'.number ≤ b.number) : b' ∈ s.blocks.rows := by
  have hpositive := hs'.linked.height_positive b' hb' hcanonical'
  obtain ⟨b₀, hb₀, hcanonical₀, hnumber⟩ := hs.linked.exists_at hb hcanonical hpositive hle
  have hkept₀ := h.below_kept b hb hcanonical hkept b₀ hb₀ hcanonical₀ (by omega)
  have heq := hs'.linked.height_unique b₀ hkept₀ b' hb' hcanonical₀ hcanonical' hnumber
  rw [← heq]
  exact hb₀

def MockTx.log (config : Config) (tx : MockTx) (block : MockBlock) : TransferLog where
  network := config.network.val
  asset := tx.asset
  txHash := tx.hash
  logIndex := tx.logIndex.getD 0
  blockNumber := block.number
  blockHash := block.hash
  fromAddress := tx.fromAddress.val
  toAddress := tx.toAddress.val
  amount := tx.amount

/-- The log of a mined transaction in a canonical block. -/
structure Emitted (config : Config) (s : State) (tx : MockTx) (block : MockBlock)
    (entry : TransferLog) : Prop where
  tx_mem : tx ∈ s.transactions.rows
  mined : tx.status = .mined
  block_mem : block ∈ s.blocks.rows
  canonical : block.isCanonical = true
  blockHash : tx.blockHash = some block.hash
  entry_eq : entry = tx.log config block

def OnChain (config : Config) (s : State) (entry : TransferLog) : Prop :=
  ∃ tx block, Emitted config s tx block entry

/-- The logs of the canonical blocks up to a height. -/
def logsUpTo (config : Config) (s : State) (height : Nat) : List TransferLog :=
  s.transactions.rows.filterMap (transferLog config s 0 height)

theorem canonicalBlock_iff {s : State} {tx : MockTx} {block : MockBlock} :
    canonicalBlock s tx = some block ↔
      block ∈ s.blocks.rows ∧ block.isCanonical = true ∧
        tx.blockHash = some block.hash := by
  unfold canonicalBlock
  cases hhash : tx.blockHash with
  | none => simp
  | some hash =>
      simp only [Option.bind_some, Option.filter_eq_some_iff, Option.some.injEq]
      rw [s.blocks.find?_eq_some_iff]
      constructor
      · rintro ⟨⟨hmem, hkey⟩, hcanonical⟩
        exact ⟨hmem, hcanonical, hkey.symm⟩
      · rintro ⟨hmem, hcanonical, hkey⟩
        exact ⟨⟨hmem, hkey.symm⟩, hcanonical⟩

theorem transferLog_iff {config : Config} {s : State} (hs : Consistent s)
    {fromBlock toBlock : Nat} {tx : MockTx} (htx : tx ∈ s.transactions.rows)
    {entry : TransferLog} :
    transferLog config s fromBlock toBlock tx = some entry ↔
      (∃ block, Emitted config s tx block entry) ∧
        fromBlock ≤ entry.blockNumber ∧ entry.blockNumber ≤ toBlock := by
  have hplaced := hs.placed tx htx
  constructor
  · intro h
    unfold transferLog at h
    obtain ⟨number, hnumber, h⟩ := Option.bind_eq_some_iff.mp h
    obtain ⟨block, hblock, h⟩ := Option.bind_eq_some_iff.mp h
    simp only [Option.ite_none_right_eq_some, Option.some.injEq] at h
    obtain ⟨⟨hmined, hfrom, hto⟩, rfl⟩ := h
    obtain ⟨hmem, hcanonical, hhash⟩ := canonicalBlock_iff.mp hblock
    simp only [Placed, hmined] at hplaced
    obtain ⟨b, hb, _, hhash', hnumber'⟩ := hplaced
    have heq : b = block := s.blocks.eq_of_mem_of_key_eq hb hmem
      (Option.some.inj (hhash'.symm.trans hhash))
    have hheight : number = block.number := by
      rw [hnumber', heq] at hnumber
      exact (Option.some.inj hnumber).symm
    subst hheight
    exact ⟨⟨block, htx, hmined, hmem, hcanonical, hhash, rfl⟩, hfrom, hto⟩
  · rintro ⟨⟨block, hemitted⟩, hfrom, hto⟩
    have hmined := hemitted.mined
    simp only [Placed, hmined] at hplaced
    obtain ⟨b, hb, _, hhash, hnumber⟩ := hplaced
    have heq : b = block := s.blocks.eq_of_mem_of_key_eq hb hemitted.block_mem
      (Option.some.inj (hhash.symm.trans hemitted.blockHash))
    rw [heq] at hnumber
    have hblock := canonicalBlock_iff.mpr
      ⟨hemitted.block_mem, hemitted.canonical, hemitted.blockHash⟩
    obtain rfl := hemitted.entry_eq
    simp only [MockTx.log] at hfrom hto
    simp [transferLog, hnumber, hblock, hmined, hfrom, hto, MockTx.log]

theorem mem_logsUpTo {config : Config} {s : State} (hs : Consistent s) {height : Nat}
    {entry : TransferLog} :
    entry ∈ logsUpTo config s height ↔
      OnChain config s entry ∧ entry.blockNumber ≤ height := by
  unfold logsUpTo
  rw [List.mem_filterMap]
  constructor
  · rintro ⟨tx, htx, hlog⟩
    obtain ⟨hemitted, _, hle⟩ := (transferLog_iff hs htx).mp hlog
    exact ⟨⟨tx, hemitted⟩, hle⟩
  · rintro ⟨⟨tx, block, hemitted⟩, hle⟩
    exact ⟨tx, hemitted.tx_mem,
      (transferLog_iff hs hemitted.tx_mem).mpr ⟨⟨block, hemitted⟩, Nat.zero_le _, hle⟩⟩

theorem mem_getTransferLogs {config : Config} {s : State} (hs : Consistent s)
    {fromBlock toBlock : Nat} {addresses : List String} {logs : List TransferLog}
    (h : getTransferLogs config s fromBlock toBlock addresses = .ok logs)
    {entry : TransferLog} :
    entry ∈ logs ↔ OnChain config s entry ∧
      (fromBlock ≤ entry.blockNumber ∧ entry.blockNumber ≤ toBlock) ∧
      (addresses = [] ∨ config.letterCase.lower entry.toAddress ∈
        addresses.map config.letterCase.lower) := by
  have hmem : entry ∈ s.transactions.rows.filterMap
        (transferLog config s fromBlock toBlock) ↔
      OnChain config s entry ∧ fromBlock ≤ entry.blockNumber ∧
        entry.blockNumber ≤ toBlock := by
    rw [List.mem_filterMap]
    constructor
    · rintro ⟨tx, htx, hlog⟩
      obtain ⟨hemitted, hrange⟩ := (transferLog_iff hs htx).mp hlog
      exact ⟨⟨tx, hemitted⟩, hrange⟩
    · rintro ⟨⟨tx, block, hemitted⟩, hrange⟩
      exact ⟨tx, hemitted.tx_mem,
        (transferLog_iff hs hemitted.tx_mem).mpr ⟨⟨block, hemitted⟩, hrange⟩⟩
  unfold getTransferLogs at h
  split at h
  next hempty =>
    cases h
    constructor
    · intro hmember
      simp at hmember
    · rintro ⟨_, hrange, _⟩
      omega
  next =>
    cases hup : assertRpcUp s with
    | error e => simp [hup, bind, Except.bind] at h
    | ok _ =>
        simp only [hup, bind, Except.bind, pure, Except.pure, Except.ok.injEq] at h
        subst h
        rw [List.mem_insertionSort]
        split
        next hall => simp [hmem, hall]
        next hsome => simp [hmem, hsome, and_assoc]

/-- The receipt of a transaction tells the block of its log. -/
theorem getReceipt_onChain {config : Config} {s : State} (hs : Consistent s)
    {entry : TransferLog} (hentry : OnChain config s entry) {receipt : Option TxReceipt}
    (h : getReceipt s entry.txHash = .ok receipt) :
    receipt = some ⟨entry.txHash, entry.blockNumber, entry.blockHash, 1⟩ := by
  obtain ⟨tx, block, hemitted⟩ := hentry
  have hplaced := hs.placed tx hemitted.tx_mem
  have hmined := hemitted.mined
  simp only [Placed, hmined] at hplaced
  obtain ⟨b, hb, _, hhash, hnumber⟩ := hplaced
  have heq : b = block := s.blocks.eq_of_mem_of_key_eq hb hemitted.block_mem
    (Option.some.inj (hhash.symm.trans hemitted.blockHash))
  rw [heq] at hnumber
  have hfind := s.transactions.find?_of_mem hemitted.tx_mem
  have hblock := canonicalBlock_iff.mpr
    ⟨hemitted.block_mem, hemitted.canonical, hemitted.blockHash⟩
  obtain rfl := hemitted.entry_eq
  unfold getReceipt at h
  cases hup : assertRpcUp s with
  | error e => simp [hup, bind, Except.bind] at h
  | ok _ =>
      simp only [hup, bind, Except.bind, pure, Except.pure, MockTx.log, hfind, hblock,
        hmined, hnumber] at h
      simp only [reduceCtorEq, or_self, if_false, if_true, Option.getD_some,
        Except.ok.injEq] at h
      exact h.symm

/-- A log in a block the earlier state has was there already. -/
theorem Later.onChain_before {config : Config} {s s' : State} (h : Later s s')
    {entry : TransferLog} (hentry : OnChain config s' entry)
    (hblock : ∃ b ∈ s.blocks.rows, b.hash = entry.blockHash) :
    OnChain config s entry := by
  obtain ⟨tx, block, hemitted⟩ := hentry
  obtain ⟨b, hb, hhash⟩ := hblock
  obtain rfl := hemitted.entry_eq
  have heq := h.canonical_before block hemitted.block_mem hemitted.canonical b hb hhash
  subst heq
  exact ⟨tx, b, h.contents_before tx hemitted.tx_mem b hb hemitted.blockHash,
    hemitted.mined, hb, hemitted.canonical, hemitted.blockHash, rfl⟩

/-! ## The blocks of a reorg -/

theorem evictTx_blocks {config : Config} {drop : List String} {s s' : State} {tx : MockTx}
    (h : evictTx config drop s tx = some s') : s'.blocks = s.blocks := by
  unfold evictTx at h
  obtain ⟨mid, hmid, rfl⟩ := Option.map_eq_some_iff.mp h
  rw [saveTx_blocks]
  split at hmid
  · exact (applyBalances_moved hmid).blocks
  · cases hmid
    rfl

theorem orphanBlock_blocks {config : Config} {drop : List String} {s s' : State}
    {block : MockBlock} (h : orphanBlock config drop s block = some s') :
    s'.blocks = s.blocks.replace { block with isCanonical := false } := by
  have hevicted : ∀ (txs : List MockTx) (s mid : State),
      txs.foldlM (evictTx config drop) s = some mid → mid.blocks = s.blocks := by
    intro txs
    induction txs with
    | nil =>
        intro s mid h
        simp only [List.foldlM_nil, pure, Option.some.injEq] at h
        rw [h]
    | cons tx rest ih =>
        intro s mid h
        rw [List.foldlM_cons] at h
        obtain ⟨next, hnext, hrest⟩ := Option.bind_eq_some_iff.mp h
        exact (ih next mid hrest).trans (evictTx_blocks hnext)
  unfold orphanBlock at h
  obtain ⟨mid, hmid, rfl⟩ := Option.map_eq_some_iff.mp h
  simp only [hevicted _ s mid hmid]

/-- A block which is taken off is not canonical afterwards. -/
theorem orphanTop_orphans {config : Config} {depth : Nat} {drop : List String}
    {s s' : State} (h : orphanTop config depth drop s = some s') {block : MockBlock}
    (hblock : block ∈ victims depth s) :
    ∀ b ∈ s'.blocks.rows, b.hash = block.hash → b.isCanonical = false := by
  have hfold : ∀ (blocks : List MockBlock) (s : State),
      blocks.foldlM (orphanBlock config drop) s = some s' → ∀ hash,
      (hash ∈ blocks.map MockBlock.hash ∨
        ∀ b ∈ s.blocks.rows, b.hash = hash → b.isCanonical = false) →
      ∀ b ∈ s'.blocks.rows, b.hash = hash → b.isCanonical = false := by
    intro blocks
    induction blocks with
    | nil =>
        intro s hfold hash htaken
        simp only [List.foldlM_nil, pure, Option.some.injEq] at hfold
        subst hfold
        exact htaken.resolve_left (by simp)
    | cons first rest ih =>
        intro s hfold hash htaken
        rw [List.foldlM_cons] at hfold
        obtain ⟨mid, hfirst, hrest⟩ := Option.bind_eq_some_iff.mp hfold
        apply ih mid hrest hash
        by_cases hlater : hash ∈ rest.map MockBlock.hash
        · exact Or.inl hlater
        · right
          intro b hb hhash
          rw [orphanBlock_blocks hfirst, Table.replace_rows] at hb
          obtain ⟨old, hold, rfl⟩ := List.mem_map.mp hb
          split at hhash
          next hsame => rw [if_pos hsame]
          next hother =>
            rw [if_neg hother]
            rcases htaken with hmem | hbefore
            · rcases List.mem_cons.mp hmem with heq | hmem
              · exact (hother (hhash.trans heq)).elim
              · exact (hlater hmem).elim
            · exact hbefore old hold hhash
  unfold orphanTop at h
  exact hfold _ s h block.hash (Or.inl (List.mem_map_of_mem hblock))

theorem Later.mineBlocks {config : Config} {draw : Nat → Uuid} {s s' : State}
    (h : Later s s') (count : Nat) : Later s (mineBlocks config draw count s') := by
  induction count generalizing s' with
  | zero => exact h
  | succ count ih =>
      unfold MockChain.mineBlocks
      cases hmine : MockChain.mineBlock config (draw count) s' with
      | none => exact h
      | some next => exact ih (h.mineBlock hmine)

/-- No canonical block after a reorg has the hash of a block it took off. -/
theorem reorg_replaces {config : Config} {depth : Nat} {drop : List String}
    {draw : Nat → Uuid} {s : State} (hs : Consistent s) {block : MockBlock}
    (hblock : block ∈ victims depth s) (hmem : block ∈ s.blocks.rows)
    (hran : reorg config depth drop draw s ≠ s) :
    ∀ b ∈ (reorg config depth drop draw s).blocks.rows, b.isCanonical = true →
      b.hash ≠ block.hash := by
  cases horphan : orphanTop config depth drop s with
  | none =>
      refine (hran ?_).elim
      unfold reorg
      cases head? s with
      | none => rfl
      | some head => simp only [horphan]
  | some mid =>
      cases hhead : head? s with
      | none => exact (hran (by simp only [reorg, hhead])).elim
      | some head =>
          intro b hb hcanonical hhash
          simp only [reorg, hhead, horphan] at hb
          have hmid := @Later.step config s s (.refl s) hs (.orphan depth drop)
          simp only [chainStep, horphan, Option.getD_some] at hmid
          obtain ⟨old, hold, hkept⟩ := hmid.hash_kept block hmem
          have heq := ((Later.refl mid).mineBlocks _).canonical_before b hb hcanonical old hold
            (hkept.trans hhash.symm)
          have hgone := orphanTop_orphans horphan hblock old hold hkept
          rw [heq, hcanonical] at hgone
          cases hgone

end CryptoWallet.MockChain
