import CryptoWallet.ChainView
import CryptoWallet.TurnQueue

/-!
# Pending transactions are taken up in turn

A block takes up the first transactions of the mempool, and what it has taken up does not
come back by mining.  So a pending transaction is executed once the blocks come to the
mempool, and each block after that makes it deeper.
-/

namespace CryptoWallet.MockChain

/-! ## What a block does to the rows -/

/-- The switches of the node are not moved. -/
def SameSwitches (s s' : State) : Prop :=
  s'.faults.rpcAvailable = s.faults.rpcAvailable ∧
    s'.faults.haltMining = s.faults.haltMining

theorem SameSwitches.trans {s s' s'' : State} (h : SameSwitches s s')
    (h' : SameSwitches s' s'') : SameSwitches s s'' :=
  ⟨h'.1.trans h.1, h'.2.trans h.2⟩

theorem includeTx_switches {block : MockBlock} {s s' : State} {logIndex logIndex' : Nat}
    {tx : MockTx} (h : includeTx block s logIndex tx = some (s', logIndex')) :
    SameSwitches s s' := by
  have hfaults : SameSwitches s { s with faults := (reverts s tx).2 } := by
    unfold reverts
    dsimp only
    split <;> exact ⟨rfl, rfl⟩
  unfold includeTx at h
  dsimp only at h
  split at h
  · simp only [Option.some.injEq, Prod.mk.injEq] at h
    obtain ⟨rfl, _⟩ := h
    exact hfaults
  · simp only [Option.map_eq_some_iff, Prod.mk.injEq] at h
    obtain ⟨mid, happly, rfl, _⟩ := h
    have hmoved := (applyBalances_moved happly).faults
    unfold SameSwitches at hfaults ⊢
    simp only [saveTx, hmoved]
    exact hfaults

/-- The transactions of the block are executed in it, and the others stay as they are. -/
structure Fills (block : MockBlock) (txs : List MockTx) (s s' : State)
    (outcome : MockTx → MockTx) : Prop where
  rows : s'.transactions.rows = s.transactions.rows.map outcome
  taken : ∀ tx ∈ txs, tx.IncludedAs block (outcome tx)
  others : ∀ tx, tx ∉ txs → outcome tx = tx
  switches : SameSwitches s s'

theorem includeTxs_fills {block : MockBlock} {txs : List MockTx} {s s' : State}
    {logIndex : Nat} (htxs : ∀ tx ∈ txs, tx ∈ s.transactions.rows)
    (hnodup : (txs.map MockTx.hash).Nodup)
    (h : includeTxs block txs s logIndex = some s') :
    ∃ outcome, Fills block txs s s' outcome := by
  induction txs generalizing s logIndex with
  | nil =>
      simp only [includeTxs, Option.some.injEq] at h
      subst h
      exact ⟨id, by simp, by simp, fun _ _ => rfl, rfl, rfl⟩
  | cons tx rest ih =>
      simp only [includeTxs] at h
      cases hfirst : includeTx block s logIndex tx with
      | none => simp [hfirst] at h
      | some result =>
          obtain ⟨mid, logIndex'⟩ := result
          simp only [hfirst] at h
          obtain ⟨tx', hincluded, _, htransactions, _⟩ := includeTx_cases hfirst
          obtain ⟨hfresh, hrest⟩ := List.nodup_cons.mp hnodup
          have hmid : mid.transactions.rows =
              s.transactions.rows.map fun r => if r = tx then tx' else r := by
            rw [htransactions, Table.replace_rows]
            apply List.map_congr_left
            intro r hr
            have hkey : r.hash = tx'.hash ↔ r = tx := by
              rw [hincluded.hash_eq]
              constructor
              · exact s.transactions.eq_of_mem_of_key_eq hr (htxs tx List.mem_cons_self)
              · exact fun hsame => by rw [hsame]
            simp only [hkey]
          have hother : ∀ r ∈ rest, r ≠ tx := by
            rintro r hr rfl
            exact hfresh (List.mem_map_of_mem hr)
          have hkept : ∀ r ∈ rest, r ∈ mid.transactions.rows := by
            intro r hr
            rw [hmid]
            refine List.mem_map.mpr ⟨r, htxs r (List.mem_cons_of_mem tx hr), ?_⟩
            exact if_neg (hother r hr)
          obtain ⟨outcome, hfills⟩ := ih hkept hrest h
          have hnew : outcome tx' = tx' := by
            apply hfills.others
            intro hmem
            apply hfresh
            rw [← hincluded.hash_eq]
            exact List.mem_map_of_mem hmem
          refine ⟨fun r => if r = tx then tx' else outcome r, ?_, ?_, ?_, ?_⟩
          · rw [hfills.rows, hmid, List.map_map]
            apply List.map_congr_left
            intro r _
            by_cases hsame : r = tx
            · simp [hsame, hnew]
            · simp [hsame]
          · intro r hr
            rcases List.mem_cons.mp hr with rfl | hr
            · simpa using hincluded
            · simpa [hother r hr] using hfills.taken r hr
          · intro r hr
            rw [List.mem_cons, not_or] at hr
            simpa [hr.1] using hfills.others r hr.2
          · exact (includeTx_switches hfirst).trans hfills.switches

theorem mineBlock_fills {config : Config} {draw : Uuid} {s s' : State}
    (h : mineBlock config draw s = some s') :
    ∃ outcome, Fills (nextBlock config draw s) (pendingTxs s) s s' outcome := by
  unfold mineBlock at h
  cases hinsert : s.blocks.insert? (nextBlock config draw s) with
  | none => simp [hinsert] at h
  | some blocks =>
      simp only [hinsert] at h
      obtain ⟨outcome, hfills⟩ := includeTxs_fills (s := { s with blocks })
        (fun tx htx => (pendingTxs_mem htx).1) (pendingTxs_nodup s) h
      exact ⟨outcome, hfills.rows, hfills.taken, hfills.others, hfills.switches⟩

theorem mineBlock_head {config : Config} {draw : Uuid} {s s' : State} (hs : Consistent s)
    (h : mineBlock config draw s = some s') : headNumber s' = headNumber s + 1 := by
  obtain ⟨hinsert, _⟩ := mineBlock_rows h
  obtain ⟨_, htop⟩ := nextBlock_consistent hs hinsert
  have hnext : (nextBlock config draw s).number = headNumber s + 1 := by
    unfold nextBlock headNumber
    cases head? s <;> rfl
  have hreached := number_le_headNumber (s := s') htop.mem htop.canonical
  obtain ⟨b, hhead, hnumber⟩ := head?_of_headNumber (s := s') (by omega)
  have hle := htop.highest b (head?_top hhead).mem (head?_top hhead).canonical
  omega

/-! ## The mempool -/

/-- The number of transactions which wait for a block. -/
def mempool (s : State) : Nat := s.transactions.rows.countP (·.status = .pending)

def Waits (hash : ChainHash) (s : State) : Prop :=
  ∃ tx ∈ s.transactions.rows, tx.hash = hash ∧ tx.status = .pending

def TakenUp (hash : ChainHash) (s : State) : Prop :=
  ∃ tx ∈ s.transactions.rows, tx.hash = hash ∧ (tx.status = .mined ∨ tx.status = .failed)

theorem MockTx.IncludedAs.not_pending {tx tx' : MockTx} {block : MockBlock}
    (h : tx.IncludedAs block tx') : tx'.status ≠ .pending := by
  cases h with
  | failed => simp [MockTx.failedIn]
  | mined logIndex => simp [MockTx.minedIn]

section Fills

variable {block : MockBlock} {s s' : State} {outcome : MockTx → MockTx} {hash : ChainHash}

theorem Fills.mempool (h : Fills block (pendingTxs s) s s' outcome) :
    mempool s' + (pendingTxs s).length = MockChain.mempool s := by
  have hsubset : pendingTxs s ⊆ s.transactions.rows := fun tx htx => (pendingTxs_mem htx).1
  have hcount := countP_mem_of_subset hsubset (pendingTxs_nodup s).of_map
    s.transactions.nodup.of_map
  rw [MockChain.mempool, MockChain.mempool, h.rows, ← hcount]
  -- each row stays pending, is taken up, or was not pending before
  apply countP_map_add
  intro tx
  by_cases htx : tx ∈ pendingTxs s
  · have hincluded := (h.taken tx htx).not_pending
    simp [htx, hincluded, (pendingTxs_mem htx).2]
  · simp [htx, h.others tx htx]

theorem Fills.mem_of_settled (h : Fills block (pendingTxs s) s s' outcome) {tx : MockTx}
    (htx : tx ∈ s.transactions.rows) (hstatus : tx.status = .mined ∨ tx.status = .failed) :
    tx ∈ s'.transactions.rows := by
  have hidle : tx ∉ pendingTxs s := by
    intro hmem
    rw [(pendingTxs_mem hmem).2] at hstatus
    rcases hstatus with hstatus | hstatus
    · cases hstatus
    · cases hstatus
  rw [h.rows]
  exact List.mem_map.mpr ⟨tx, htx, h.others tx hidle⟩

theorem Fills.takenUp (h : Fills block (pendingTxs s) s s' outcome)
    (hdone : TakenUp hash s) : TakenUp hash s' := by
  obtain ⟨tx, htx, hhash, hstatus⟩ := hdone
  exact ⟨tx, h.mem_of_settled htx hstatus, hhash, hstatus⟩

/-- A transaction which waits is executed in the block, or the block is full. -/
theorem Fills.turn (h : Fills block (pendingTxs s) s s' outcome)
    (hmining : s.faults.haltMining = false) (hwaits : Waits hash s) :
    TakenUp hash s' ∨
      (Waits hash s' ∧ MockChain.mempool s' + maxTxsPerBlock ≤ MockChain.mempool s) := by
  obtain ⟨tx, htx, hhash, hpending⟩ := hwaits
  have hmember : ∀ tx', outcome tx = tx' → tx' ∈ s'.transactions.rows := by
    rintro _ rfl
    rw [h.rows]
    exact List.mem_map_of_mem htx
  by_cases htaken : tx ∈ pendingTxs s
  · left
    have hincluded := h.taken tx htaken
    refine ⟨outcome tx, hmember _ rfl, hincluded.hash_eq.trans hhash, ?_⟩
    exact hincluded.place.1.symm
  · right
    refine ⟨⟨tx, hmember tx (h.others tx htaken), hhash, hpending⟩, ?_⟩
    have hfull : (pendingTxs s).length = maxTxsPerBlock := by
      unfold pendingTxs at htaken ⊢
      rw [hmining] at htaken ⊢
      simp only [Bool.false_eq_true, if_false] at htaken ⊢
      apply length_take_of_waiting ?_ htaken
      rw [List.mem_insertionSort]
      exact List.mem_filter.mpr ⟨htx, by simpa using hpending⟩
    have hcount := h.mempool
    omega

end Fills

/-! ## Runs of the miner -/

/-- A block is mined, if no statement raises. -/
def mine (config : Config) (draw : Uuid) (s : State) : State :=
  (mineBlock config draw s).getD s

/-- No statement raises. -/
def Mines (config : Config) (s : State) (draw : Uuid) : Prop :=
  (mineBlock config draw s).isSome = true

instance (config : Config) (s : State) (draw : Uuid) : Decidable (Mines config s draw) :=
  inferInstanceAs (Decidable (_ = _))

/-- The miner is at work on a chain which was executed block by block. -/
structure Mining (s : State) : Prop where
  consistent : Consistent s
  on : s.faults.haltMining = false

section Mine

variable {config : Config} {s : State} {draw : Uuid} {draws : List Uuid} {hash : ChainHash}

theorem Mines.some (h : Mines config s draw) :
    mineBlock config draw s = .some (mine config draw s) := by
  unfold Mines at h
  unfold mine
  cases hmine : mineBlock config draw s with
  | none => simp [hmine] at h
  | some s' => rfl

theorem Mining.mine (h : Mining s) (hmines : Mines config s draw) :
    Mining (mine config draw s) := by
  obtain ⟨outcome, hfills⟩ := mineBlock_fills hmines.some
  exact ⟨mineBlock_consistent h.consistent hmines.some, hfills.switches.2.trans h.on⟩

theorem mine_takenUp (hmines : Mines config s draw) (hdone : TakenUp hash s) :
    TakenUp hash (mine config draw s) := by
  obtain ⟨outcome, hfills⟩ := mineBlock_fills hmines.some
  exact hfills.takenUp hdone

theorem mempool_positive (h : Waits hash s) : 0 < mempool s := by
  obtain ⟨tx, htx, _, hpending⟩ := h
  exact List.countP_pos_iff.mpr ⟨tx, htx, by simpa using hpending⟩

/-- Once the blocks come to the mempool, the transaction is executed. -/
theorem Mining.taken_in_turn (h : Mining s) (hlive : TakenUp hash s ∨ Waits hash s)
    (hmines : AdmittedRun (MockChain.mine config) (Mines config) s draws)
    (hlong : mempool s ≤ maxTxsPerBlock * draws.length) :
    TakenUp hash (runSteps (MockChain.mine config) s draws) := by
  apply served_in_turn Mining (Waits hash) mempool ?_ ?_ ?_ ?_ h hlive hmines hlong
  · exact fun s draw hs hmines => hs.mine hmines
  · intro s draw hs hmines hwaits
    obtain ⟨outcome, hfills⟩ := mineBlock_fills hmines.some
    exact hfills.turn hs.on hwaits
  · exact fun s draw _ hmines hdone => mine_takenUp hmines hdone
  · exact fun s _ hwaits => mempool_positive hwaits

/-- The transaction is in a canonical block at this height at most. -/
def TakenBelow (hash : ChainHash) (height : Nat) (s : State) : Prop :=
  ∃ tx ∈ s.transactions.rows, tx.hash = hash ∧ (tx.status = .mined ∨ tx.status = .failed) ∧
    ∃ block ∈ s.blocks.rows, block.isCanonical = true ∧ tx.blockHash = some block.hash ∧
      tx.blockNumber = some block.number ∧ block.number ≤ height

theorem TakenUp.below (h : TakenUp hash s) (hs : Consistent s) :
    TakenBelow hash (headNumber s) s := by
  obtain ⟨tx, htx, hhash, hstatus⟩ := h
  have hplaced := hs.placed tx htx
  have hplace : ∃ b ∈ s.blocks.rows, b.isCanonical = true ∧ tx.blockHash = some b.hash ∧
      tx.blockNumber = some b.number := by
    rcases hstatus with hstatus | hstatus
    · simpa only [Placed, hstatus] using hplaced
    · simpa only [Placed, hstatus] using hplaced
  obtain ⟨b, hb, hcanonical, hblock, hnumber⟩ := hplace
  exact ⟨tx, htx, hhash, hstatus, b, hb, hcanonical, hblock, hnumber,
    number_le_headNumber hb hcanonical⟩

theorem TakenBelow.mine {height : Nat} (h : TakenBelow hash height s)
    (hmines : Mines config s draw) : TakenBelow hash height (MockChain.mine config draw s) := by
  obtain ⟨tx, htx, hhash, hstatus, b, hb, hplace⟩ := h
  obtain ⟨outcome, hfills⟩ := mineBlock_fills hmines.some
  obtain ⟨hinsert, _⟩ := mineBlock_rows hmines.some
  refine ⟨tx, hfills.mem_of_settled htx hstatus, hhash, hstatus, b, ?_, hplace⟩
  exact (Table.mem_insert? hinsert).mpr (Or.inl hb)

theorem runs_head (h : Mining s)
    (hmines : AdmittedRun (MockChain.mine config) (Mines config) s draws) :
    headNumber (runSteps (MockChain.mine config) s draws) = headNumber s + draws.length := by
  induction draws generalizing s with
  | nil => rfl
  | cons draw rest ih =>
      have hfirst := mineBlock_head h.consistent hmines.1.some
      rw [runSteps_cons, ih (h.mine hmines.1) hmines.2, hfirst, List.length_cons]
      omega

end Mine

/-- While blocks are mined, a transaction which was not dropped is executed once they come
to the mempool, and has a confirmation for that block and for each one after it. -/
theorem pending_transactions_are_mined {config : Config} {s : State} (h : Mining s)
    {draws : List Uuid} (hmines : AdmittedRun (mine config) (Mines config) s draws)
    {hash : ChainHash} (hlive : TakenUp hash s ∨ Waits hash s) {turns : Nat}
    (hturns : mempool s ≤ maxTxsPerBlock * turns) (hlong : turns ≤ draws.length) :
    Mining (runSteps (mine config) s draws) ∧
      headNumber (runSteps (mine config) s draws) = headNumber s + draws.length ∧
      TakenBelow hash (headNumber s + turns) (runSteps (mine config) s draws) := by
  have hkept : ∀ {s draws}, Mining s → AdmittedRun (mine config) (Mines config) s draws →
      Mining (runSteps (mine config) s draws) := by
    intro s draws hs hmines
    exact hmines.invariant (fun s draw hs hmines => hs.mine hmines) hs
  refine ⟨hkept h hmines, runs_head h hmines, ?_⟩
  rw [← List.take_append_drop turns draws] at hmines ⊢
  obtain ⟨hfirst, hlater⟩ := admittedRun_append.mp hmines
  rw [runSteps_append]
  have hlength : (draws.take turns).length = turns := by
    rw [List.length_take]
    omega
  have hdone := h.taken_in_turn hlive hfirst (by rw [hlength]; exact hturns)
  have hbelow := hdone.below (hkept h hfirst).consistent
  rw [runs_head h hfirst, hlength] at hbelow
  exact hlater.invariant (I := TakenBelow hash (headNumber s + turns))
    (fun s draw hs hmines => hs.mine hmines) hbelow

end CryptoWallet.MockChain
