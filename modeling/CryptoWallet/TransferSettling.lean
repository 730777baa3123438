import CryptoWallet.BroadcastQueue
import CryptoWallet.ChainView
import CryptoWallet.FinalityWindow
import CryptoWallet.ServiceTransactions

/-!
# Due transfers are settled

The broadcaster sends what is due, the miner comes to it, and once it is deep enough one
run of the watcher confirms the record or fails it, whichever the receipt says.  Either is
reported.
-/

namespace CryptoWallet

/-! ## The receipt of what is in a block -/

namespace MockChain

variable {config : Config} {s : State} {draw : Uuid} {draws : List Uuid} {hash : ChainHash}

theorem mine_up (hmines : Mines config s draw) (hup : assertRpcUp s = .ok ()) :
    assertRpcUp (mine config draw s) = .ok () := by
  obtain ⟨outcome, hfills⟩ := mineBlock_fills hmines.some
  unfold assertRpcUp at hup ⊢
  rw [hfills.switches.1]
  exact hup

theorem TakenBelow.receipt {height : Nat} (h : TakenBelow hash height s) :
    ∃ receipt, receiptOf s hash = some receipt ∧ receipt.blockNumber ≤ height := by
  obtain ⟨tx, htx, rfl, hstatus, block, hblock, hcanonical, hplace, hnumber, hheight⟩ := h
  have hfind := s.transactions.find?_of_mem htx
  have hcanonicalBlock : canonicalBlock s tx = some block :=
    canonicalBlock_iff.mpr ⟨hblock, hcanonical, hplace⟩
  have hopen : ¬(tx.status = .pending ∨ tx.status = .dropped) := by
    rcases hstatus with hstatus | hstatus
    · simp [hstatus]
    · simp [hstatus]
  refine ⟨⟨tx.hash, tx.blockNumber.getD 0, block.hash, if tx.status = .mined then 1 else 0⟩,
    ?_, ?_⟩
  · simp only [receiptOf, hfind, hcanonicalBlock, if_neg hopen]
  · simpa [hnumber] using hheight

end MockChain

namespace Blockchain

open MockChain (Usable assertRpcUp headNumber mempool)

/-! ## The turn of a record with a receipt -/

/-- The record is confirmed or failed, and this is reported. -/
def Settled (transferId : Uuid) (db : Db) : Prop :=
  ∃ record, db.outgoing.find? transferId = some record ∧ ∃ eventType rest,
    db.outbox.Has (reportId eventType transferId rest) ∧
      ((record.status = .confirmed ∧ eventType = .txConfirmed) ∨
        (record.status = .failed ∧ eventType = .txFailed))

section Watch

variable {σ : Type} {adapter : ChainAdapter σ} {letterCase : LetterCase} {chain : σ}
  {view : ChainView} {settings : Settings} {scope : Scope} {db : Db}
  {record : OutgoingTransaction} {txHash : ChainHash} {receipt : TxReceipt}

theorem checkOne_settles (hshows : Shows adapter letterCase chain view)
    (hrecord : db.outgoing.find? record.transferId = some record)
    (hstatus : record.status = .broadcasted) (htx : record.txHash = some txHash)
    (hreceipt : view.receiptOf txHash = some receipt)
    (hdeep : settings.confirmationsRequired ≤ view.head + 1 - receipt.blockNumber)
    {outcome : CheckOutcome}
    (hvisit : (checkOne adapter settings scope chain view.head record.transferId db).1 =
      some outcome) :
    Settled record.transferId
      (checkOne adapter settings scope chain view.head record.transferId db).2 := by
  rcases checkOne_cases adapter settings scope chain view.head record.transferId db with
    hraised | ⟨hnone, _⟩ | ⟨record', seen, receipt', _, after, hrecord', hseen, hreceipt',
      hchecked, hreturned⟩
  · rw [hraised] at hvisit
    cases hvisit
  · simp [hrecord, OutgoingTransaction.seen, htx] at hnone
  · rw [hrecord, Option.some.injEq] at hrecord'
    subst hrecord'
    have hhash : seen.txHash = txHash := by
      simp only [OutgoingTransaction.seen, htx, Option.map_some, Option.some.injEq] at hseen
      rw [← hseen]
    rw [hhash, hshows.receipt, hreceipt, Except.ok.injEq] at hreceipt'
    subst hreceipt'
    rw [hreturned]
    cases hchecked with
    | reverted receipt hreverted hopen payload hpayload db' hannounces =>
        obtain ⟨outbox, houtbox, rfl⟩ := hannounces
        obtain ⟨rest, hnamed⟩ := (failedEvent_reportsOn _ hpayload rfl).named
        have hhas := (enqueueEvent_has houtbox).1
        exact ⟨_, Table.find?_replace_of_key _ rfl hrecord, .txFailed, rest,
          hnamed ▸ hhas, Or.inr ⟨rfl, rfl⟩⟩
    | confirmed receipt hripe payload hpayload db' hannounces =>
        obtain ⟨outbox, houtbox, rfl⟩ := hannounces
        obtain ⟨rest, hnamed⟩ := (txConfirmedEvent_reportsOn _ hpayload rfl).named
        have hhas := (enqueueEvent_has houtbox).1
        exact ⟨_, Table.find?_replace_of_key _ rfl hrecord, .txConfirmed, rest,
          hnamed ▸ hhas, Or.inl ⟨rfl, rfl⟩⟩
    | mined receipt hreverted hripe =>
        have hsuccess : receipt.status ≠ 0 := by
          intro hzero
          rw [hreverted hzero] at hstatus
          cases hstatus
        exact (hripe ⟨hstatus, hsuccess, hdeep⟩).elim

/-- A run of the watcher settles a broadcast record which is near and deep enough. -/
theorem watchOutgoingOnce_settles (hshows : Shows adapter letterCase chain view)
    (hscope : scope.Generated) (hassets : db.AssetsKnown)
    (hrecord : db.outgoing.find? record.transferId = some record)
    (hstatus : record.status = .broadcasted) (hnear : record.Near settings view.head)
    (htx : record.txHash = some txHash) (hreceipt : view.receiptOf txHash = some receipt)
    (hdeep : settings.confirmationsRequired ≤ view.head + 1 - receipt.blockNumber) :
    Settled record.transferId
      (watchOutgoingOnce adapter settings scope chain (fun _ => chain) db).2 := by
  have hrun := watchOutgoingOnce_completes hshows settings hscope hassets
  have hresult : watchOutgoingOnce adapter settings scope chain (fun _ => chain) db =
      checkAll adapter settings scope (fun _ => chain) view.head
        (candidates settings view.head db) db := by
    simp only [watchOutgoingOnce, hshows.head]
  have hlisted : record.transferId ∈ candidates settings view.head db := by
    rw [mem_candidates]
    refine ⟨record, hrecord, ?_⟩
    unfold OutgoingTransaction.Near at hnear
    cases hnumber : record.blockNumber with
    | none => simp [OutgoingTransaction.candidate, hstatus, hnumber]
    | some number =>
        rw [hnumber] at hnear
        simpa [OutgoingTransaction.candidate, hstatus, hnumber] using hnear
  rw [hresult] at hrun ⊢
  obtain ⟨before, outcome, rest, hbefore, hvisit, hrest, hrow⟩ :=
    visitAll_turn (checkOne_ownRow adapter settings scope (fun _ => chain) view.head)
      (candidates_nodup settings view.head db) hrun hlisted
  obtain ⟨settled, hsettled, eventType, name, hhas, hcases⟩ :=
    checkOne_settles hshows (hbefore.trans hrecord) hstatus htx hreceipt hdeep hvisit
  refine ⟨settled, hrow.trans hsettled, eventType, name, ?_, hcases⟩
  unfold checkAll
  rw [hrest]
  -- the rows after it add to the outbox
  apply visitAll_preserves (I := fun db' : Db => db'.outbox.Has
    (reportId eventType record.transferId name)) ?_ hhas
  exact fun id _ db' hdb' => (checkOne_grows chain id db').has hdb'

end Watch

/-! ## From due to settled -/

namespace TransferWorld

variable {config : MockChain.Config} {settings : Settings}

theorem step_assetsKnown (w : TransferWorld) (action : TransferAction)
    (h : w.db.AssetsKnown) : (step config settings action w).db.AssetsKnown := by
  cases action with
  | chain chainStep => exact h
  | request scope envelope =>
      exact ((Db.Commits.refl settings w.db).step (.request scope envelope)).preserves
        ServiceStep.run_assetsKnown h
  | broadcast scope limit =>
      exact (broadcastOnce_commits (MockChain.adapter config) settings scope limit w.chain
        w.db).preserves ServiceStep.run_assetsKnown h
  | watch scope =>
      exact (watchOutgoingOnce_commits (MockChain.adapter config) settings scope w.chain
        (fun _ => w.chain) w.db).preserves ServiceStep.run_assetsKnown h

theorem run_assetsKnown (addresses : Table String Address Address.owner)
    (actions : List TransferAction) :
    (runSteps (step config settings) (start addresses) actions).db.AssetsKnown := by
  apply runSteps_preserves (I := fun w : TransferWorld => w.db.AssetsKnown) step_assetsKnown
  constructor
  · simp [start, Db.empty]
  · simp [start, Db.empty]

/-- The node answers and mines, and neither a shared digest nor an unknown asset nor a
dropped transaction is in the way of the record. -/
structure Open (config : MockChain.Config) (record : OutgoingTransaction)
    (w : TransferWorld) : Prop where
  up : assertRpcUp w.chain = .ok ()
  mines : w.chain.faults.haltMining = false
  distinct : ∀ row ∈ w.db.outgoing.rows, ∀ other ∈ w.db.outgoing.rows,
    row.nodeHash config = other.nodeHash config → row.transferId = other.transferId
  assets : ∀ row ∈ w.db.outgoing.rows, row.unsent = true →
    (getAsset row.asset.val).isSome = true
  usable : Usable (record.nodeHash config) w.chain

theorem Open.ready {record : OutgoingTransaction} {w : TransferWorld}
    (h : w.Open config record) (hhashed : w.db.Hashed config) :
    Ready config record w where
  up := h.up
  sendable := ⟨hhashed, h.distinct, h.assets⟩
  usable := h.usable

/-- In every run, a transfer which is due is settled: runs of the broadcaster come to it,
then blocks, and once it is deep enough one run of the watcher. -/
theorem due_transfers_are_settled {addresses : Table String Address Address.owner}
    {actions : List TransferAction} {w : TransferWorld}
    (hrun : w = runSteps (step config settings) (start addresses) actions)
    {record : OutgoingTransaction} (hopen : w.Open config record)
    (hrecord : record ∈ w.db.outgoing.rows) {since : Nat} (hdue : record.due since = true)
    {limit : Nat} {scopes : List Scope}
    (htimely : AdmittedRun (broadcast config settings limit) (Timely since) w scopes)
    (hlong : w.db.backlog ≤ limit * scopes.length) {draws : List Uuid}
    (hmines : AdmittedRun (MockChain.mine config) (MockChain.Mines config)
      (runSteps (broadcast config settings limit) w scopes).chain draws) {turns : Nat}
    (hturns : mempool w.chain + w.db.backlog ≤ MockChain.maxTxsPerBlock * turns)
    (hblocks : turns ≤ draws.length)
    (hdeep : settings.confirmationsRequired + turns ≤ draws.length + 1)
    (hnear : record.Near settings (headNumber w.chain + draws.length))
    {scope : Scope} (hscope : scope.Generated) :
    let sent := runSteps (broadcast config settings limit) w scopes
    let mined := runSteps (MockChain.mine config) sent.chain draws
    OnItsWay config record sent ∧
      MockChain.TakenBelow (record.nodeHash config) (headNumber w.chain + turns) mined ∧
      Settled record.transferId (step config settings (.watch scope) ⟨mined, sent.db⟩).db := by
  intro sent mined
  have hmatching : Matching config (w.chain, w.db) := by
    rw [hrun]
    exact run_matching settings addresses actions
  have hassets : sent.db.AssetsKnown := by
    apply runSteps_preserves (I := fun w : TransferWorld => w.db.AssetsKnown)
    · exact fun v scope hv => step_assetsKnown v _ hv
    · rw [hrun]
      exact run_assetsKnown addresses actions
  obtain ⟨hsent, hsteady⟩ :=
    due_transfers_are_broadcast (hopen.ready hmatching.hashed) hrecord hdue htimely hlong
  have hmining : MockChain.Mining sent.chain := by
    refine ⟨hsteady.consistent hmatching.consistent, ?_⟩
    rw [hsteady.faults]
    exact hopen.mines
  have hup : assertRpcUp mined = .ok () := by
    apply hmines.invariant (I := fun s => assertRpcUp s = .ok ())
    · exact fun s draw hs hmines => MockChain.mine_up hmines hs
    · exact (MockChain.assertRpcUp_same hsteady.faults).trans hopen.up
  have hhead : headNumber sent.chain = headNumber w.chain := by
    unfold headNumber MockChain.head?
    rw [hsteady.blocks]
  have hmempool : mempool sent.chain ≤ MockChain.maxTxsPerBlock * turns := by
    have hwork : mempool sent.chain + sent.db.backlog ≤ mempool w.chain + w.db.backlog :=
      hsteady.work
    omega
  obtain ⟨hlast, hnumber, htaken⟩ :=
    MockChain.pending_transactions_are_mined hmining hmines hsent.live hmempool hblocks
  rw [hhead] at hnumber htaken
  obtain ⟨receipt, hreceipt, hbelow⟩ := htaken.receipt
  obtain ⟨now, hstored⟩ := hsent.stored
  have hshows := MockChain.shows_view config hlast.consistent hup
  have hview : (MockChain.view config mined hlast.consistent hup).head =
      headNumber w.chain + draws.length := hnumber
  have hripe : settings.confirmationsRequired ≤
      (MockChain.view config mined hlast.consistent hup).head + 1 - receipt.blockNumber := by
    omega
  have hfind := sent.db.outgoing.find?_of_mem hstored
  have hsight : ((record.claimed now).onItsWay config now).Near settings
      (MockChain.view config mined hlast.consistent hup).head := by
    rw [hview]
    exact hnear
  have hsettled := watchOutgoingOnce_settles hshows hscope hassets hfind rfl hsight rfl
    hreceipt hripe
  exact ⟨hsent, htaken, hsettled⟩

/-- A transfer was requested, and is not sent yet. -/
def queued : TransferWorld :=
  runSteps (step .bsc .standard) (start Db.custody.addresses) ((unwatchedRun 0).take 4)

def queuedBlocks : List Uuid := [someUuid 1, someUuid 2, someUuid 3]

theorem queued_transfer_is_settled :
    ∃ record ∈ queued.db.outgoing.rows,
      let sent := runSteps (broadcast .bsc .standard 20) queued [drawnScope]
      let mined := runSteps (MockChain.mine .bsc) sent.chain queuedBlocks
      OnItsWay .bsc record sent ∧
        MockChain.TakenBelow (record.nodeHash .bsc) (headNumber queued.chain + 1) mined ∧
        Settled record.transferId
          (step .bsc .standard (.watch drawnScope) ⟨mined, sent.db⟩).db := by
  have hrecord : ∃ record ∈ queued.db.outgoing.rows, record.due 1000 = true ∧
      Usable (record.nodeHash .bsc) queued.chain ∧
      record.Near .standard (headNumber queued.chain + queuedBlocks.length) := by
    decide +kernel
  have hup : assertRpcUp queued.chain = .ok () ∧ queued.chain.faults.haltMining = false := by
    decide +kernel
  have hrows : (∀ row ∈ queued.db.outgoing.rows, ∀ other ∈ queued.db.outgoing.rows,
        row.nodeHash .bsc = other.nodeHash .bsc → row.transferId = other.transferId) ∧
      ∀ row ∈ queued.db.outgoing.rows, row.unsent = true →
        (getAsset row.asset.val).isSome = true := by
    decide +kernel
  have hwork : queued.db.backlog ≤ 20 * 1 ∧
      mempool queued.chain + queued.db.backlog ≤ MockChain.maxTxsPerBlock * 1 := by
    decide +kernel
  have hmines : AdmittedRun (MockChain.mine .bsc) (MockChain.Mines .bsc)
      (runSteps (broadcast .bsc .standard 20) queued [drawnScope]).chain queuedBlocks := by
    decide +kernel
  obtain ⟨record, hrecord, hdue, husable, hnear⟩ := hrecord
  have hopen : queued.Open .bsc record := ⟨hup.1, hup.2, hrows.1, hrows.2, husable⟩
  have hdrawn : drawnScope.Generated := ⟨someUuid 7, rfl⟩
  have htimely : AdmittedRun (broadcast .bsc .standard 20) (Timely 1000) queued [drawnScope] :=
    ⟨⟨hdrawn, le_rfl⟩, trivial⟩
  exact ⟨record, hrecord, due_transfers_are_settled (w := queued) rfl hopen hrecord hdue
    htimely hwork.1 hmines hwork.2 (by decide) (by decide) hnear hdrawn⟩

end TransferWorld

end Blockchain

end CryptoWallet
