import CryptoWallet.ScannerCompleteness

/-!
# The chain moves under one run of the scanner

The hash which is stored with the cursor is read by another call than the logs.
So it vouches for the scanned range exactly if the chain of the last call has
the block of the hash, and has no log in the range which the run did not read.
-/

namespace CryptoWallet.Blockchain

open MockChain (ChainStep Consistent Later OnChain Reachable canonicalAt
  canonicalAt_iff chainStep chainStep_consistent headNumber logsUpTo mem_logsUpTo)

/-! ## Which rows a run leaves -/

section Rows

variable {scope : Scope}

theorem Upserted.kept {newId : Uuid} {entry : TransferLog} {db db' : Db}
    (h : Upserted scope newId entry db db') {id : DepositId}
    (hid : (db.deposits.find? id).isSome) : (db'.deposits.find? id).isSome := by
  cases h with
  | inserted proposed hproposed deposits hinsert payload hpayload outbox houtbox =>
      have hfind := Table.find?_insert? hinsert id
      change (deposits.find? id).isSome
      rw [hfind]
      split
      · rfl
      · exact hid
  | revived proposed hproposed stored hstored hreorged payload hpayload outbox houtbox =>
      change ((db.deposits.replace (stored.revived entry)).find? id).isSome
      by_cases hkey : id = (stored.revived entry).identity
      · have hsame := Table.key_of_find? hstored
        rw [← hsame] at hstored
        have hfind : (db.deposits.replace (stored.revived entry)).find?
            (stored.revived entry).identity = some (stored.revived entry) :=
          Table.find?_replace_self _ hstored
        rw [hkey, hfind]
        rfl
      · rw [Table.find?_replace_of_ne _ _ hkey]
        exact hid
  | known proposed hproposed stored hstored hlive => exact hid

/-- A run leaves the rows it found and one for each log it was given. -/
theorem UpsertedAll.find?_isSome {newId : TransferLog → Uuid} {logs : List TransferLog}
    {db db' : Db} (h : UpsertedAll scope newId logs db db')
    (hnetwork : ∀ entry ∈ logs, entry.network.length ≤ 32) (id : DepositId) :
    (db'.deposits.find? id).isSome ↔
      (db.deposits.find? id).isSome ∨ ∃ entry ∈ logs, entry.identity = id := by
  constructor
  · intro hrow
    obtain ⟨d', hd'⟩ := Option.isSome_iff_exists.mp hrow
    obtain ⟨d, hsame, horigin⟩ := h.origin (Table.mem_of_find? hd')
    have hid : d.identity = id := hsame.identity.symm.trans (Table.key_of_find? hd')
    rcases horigin with hd | ⟨entry, hentry, hproposes⟩
    · left
      rw [← hid, db.deposits.find?_of_mem hd]
      rfl
    · right
      exact ⟨entry, hentry, (hproposes.identity (hnetwork entry hentry)).symm.trans hid⟩
  · rintro (hrow | ⟨entry, hentry, rfl⟩)
    · clear hnetwork
      induction h with
      | nil db => exact hrow
      | cons hfirst hrest ih => exact ih (hfirst.kept hrow)
    · obtain ⟨d, hd, _⟩ := h.live_after hnetwork hentry
      rw [hd]
      rfl

end Rows

/-! ## One run between steps of the chain -/

/-- The chain moves after each of the first three calls. -/
def ScanCalls.interleaved (config : MockChain.Config) (chain : MockChain.State)
    (afterHead afterCursor afterLogs : List ChainStep) : ScanCalls MockChain.State :=
  let cursor := runSteps (chainStep config) chain afterHead
  let logs := runSteps (chainStep config) cursor afterCursor
  ⟨chain, cursor, logs, runSteps (chainStep config) logs afterLogs⟩

/-- The range which the first two calls of a run determine. -/
def scanRange {σ : Type} (adapter : ChainAdapter σ) (settings : Settings)
    (calls : ScanCalls σ) (db : Db) : Nat × Nat :=
  match adapter.getBlockNumber calls.head,
    scanCursor adapter settings calls.cursor (db.scanState.find? settings.network) with
  | .ok head, .ok cursor =>
    (cursor + 1, min head (cursor + 1 + settings.scanBatchBlocks - 1))
  | _, _ => (0, 0)

/-- However the chain goes on, the hash of the cursor vouches for the range. -/
def CursorTrue (config : MockChain.Config) (settings : Settings) (fromBlock : Nat)
    (chain : MockChain.State) (db : Db) : Prop :=
  ∃ state hash, db.scanState.find? settings.network = some state ∧
    state.lastScannedHash = some hash ∧
    ∀ steps, (canonicalAt (runSteps (chainStep config) chain steps)
        state.lastScannedBlock).map MockChain.MockBlock.hash = some hash →
      ∀ entry ∈ logsUpTo config (runSteps (chainStep config) chain steps)
          state.lastScannedBlock,
        fromBlock ≤ entry.blockNumber →
        Watches config settings db entry.fromAddress entry.toAddress →
        (db.deposits.find? entry.identity).isSome

/-- The chain has the last block of the range at the last call, and every log of
the range was there at the call for the logs or has a row. -/
def RangeHeld (config : MockChain.Config) (settings : Settings)
    (calls : ScanCalls MockChain.State) (db : Db) : Prop :=
  let range := scanRange (MockChain.adapter config) settings calls db
  range.2 ≤ headNumber calls.tip ∧
    ∀ entry ∈ logsUpTo config calls.tip range.2, range.1 ≤ entry.blockNumber →
      Watches config settings db entry.fromAddress entry.toAddress →
      (db.deposits.find? entry.identity).isSome ∨
        ∃ entry' ∈ logsUpTo config calls.logs range.2, range.1 ≤ entry'.blockNumber ∧
          entry'.identity = entry.identity

instance (config : MockChain.Config) (settings : Settings)
    (calls : ScanCalls MockChain.State) (db : Db) :
    Decidable (RangeHeld config settings calls db) :=
  inferInstanceAs (Decidable (_ ∧ ∀ entry ∈ _, _))

section Run

variable {config : MockChain.Config} {settings : Settings} {scope : Scope}
  {newId : TransferLog → Uuid} {calls : ScanCalls MockChain.State} {db mid : Db}
  {plan : ScanPlan}

/-- The rows a committed run leaves, among those about custody. -/
theorem scanned_isSome (hlogs : Consistent calls.logs) (hlater : Later calls.logs calls.tip)
    (hplan : scanPlan (MockChain.adapter config) settings calls db = .ok (some plan))
    (hmid : UpsertedAll scope newId plan.logs db mid) {entry : TransferLog}
    (hentry : OnChain config calls.tip entry)
    (hwatch : Watches config settings db entry.fromAddress entry.toAddress) :
    (mid.deposits.find? entry.identity).isSome ↔
      (db.deposits.find? entry.identity).isSome ∨
        ∃ entry' ∈ logsUpTo config calls.logs plan.toBlock,
          (scanRange (MockChain.adapter config) settings calls db).1 ≤ entry'.blockNumber ∧
            entry'.identity = entry.identity := by
  obtain ⟨head, cursor, fetched, hhead, _, hcursor, _, _, hfetched, hexternal, _⟩ :=
    scanPlan_some hplan
  have hrange : (scanRange (MockChain.adapter config) settings calls db).1 = cursor + 1 := by
    simp [scanRange, hhead, hcursor]
  have hread : ∀ e, e ∈ plan.logs ↔ OnChain config calls.logs e ∧
      (cursor + 1 ≤ e.blockNumber ∧ e.blockNumber ≤ plan.toBlock) ∧
      Watches config settings db e.fromAddress e.toAddress :=
    fun e => mem_fetchLogs hlogs hfetched hexternal
  have hnetwork : ∀ e ∈ plan.logs, e.network.length ≤ 32 := by
    intro e he
    obtain ⟨⟨tx, block, hemitted⟩, _⟩ := (hread e).mp he
    obtain rfl := hemitted.entry_eq
    exact config.network.property.1
  rw [hmid.find?_isSome hnetwork, hrange]
  apply or_congr_right
  constructor
  · rintro ⟨e, he, hid⟩
    obtain ⟨hon, ⟨hfrom, hto⟩, _⟩ := (hread e).mp he
    exact ⟨e, (mem_logsUpTo hlogs).mpr ⟨hon, hto⟩, hfrom, hid⟩
  · rintro ⟨e, he, hfrom, hid⟩
    obtain ⟨hon, hto⟩ := (mem_logsUpTo hlogs).mp he
    refine ⟨e, (hread e).mpr ⟨hon, ⟨hfrom, hto⟩, ?_⟩, hid⟩
    -- a transaction keeps its addresses
    obtain ⟨tx, block, hemitted⟩ := hon
    obtain ⟨tx', block', hemitted'⟩ := hentry
    obtain ⟨tx'', htx'', hsame⟩ := hlater.submitted_kept tx hemitted.tx_mem
    obtain rfl := hemitted.entry_eq
    obtain rfl := hemitted'.entry_eq
    simp only [TransferLog.identity, Prod.mk.injEq] at hid
    have heq : tx'' = tx' := calls.tip.transactions.eq_of_mem_of_key_eq htx''
      hemitted'.tx_mem (hsame.hash.trans hid.2.1)
    subst heq
    change Watches config settings db tx''.fromAddress.val tx''.toAddress.val at hwatch
    rw [hsame.fromAddress, hsame.toAddress] at hwatch
    exact hwatch

theorem RangeHeld.cursorTrue (hlogs : Consistent calls.logs) (htip : Consistent calls.tip)
    (hlater : Later calls.logs calls.tip)
    (hplan : scanPlan (MockChain.adapter config) settings calls db = .ok (some plan))
    (hmid : UpsertedAll scope newId plan.logs db mid)
    (hheld : RangeHeld config settings calls db) :
    CursorTrue config settings (scanRange (MockChain.adapter config) settings calls db).1
      calls.tip (mid.moveCursor (plan.state settings)) := by
  obtain ⟨head, cursor, fetched, hhead, _, hcursor, hto, hrange, _, _, htipHash⟩ :=
    scanPlan_some hplan
  obtain ⟨hreach, hcovered⟩ := hheld
  have hbounds : scanRange (MockChain.adapter config) settings calls db =
      (cursor + 1, plan.toBlock) := by
    simp [scanRange, hhead, hcursor, hto]
  rw [hbounds] at hreach hcovered ⊢
  obtain ⟨b, hb, hnumber⟩ := MockChain.head?_of_headNumber
    (show headNumber calls.tip ≠ 0 by omega)
  have htop := MockChain.head?_top hb
  have hgenesis : MockChain.genesisNumber ≤ plan.toBlock := by
    unfold MockChain.genesisNumber
    omega
  obtain ⟨last, hlast, hlastCanonical, hlastNumber⟩ :=
    htip.linked.exists_at htop.mem htop.canonical hgenesis (by omega)
  have hat := (canonicalAt_iff htip).mpr ⟨hlast, hlastCanonical, hlastNumber⟩
  have hhash := MockChain.getBlockHash_ok htipHash
  rw [hat] at hhash
  refine ⟨plan.state settings, last.hash, Db.moveCursor_find? mid settings plan, hhash, ?_⟩
  intro steps hsame entry hentry hfrom hwatch
  obtain ⟨hafter, hconsistent⟩ := Later.run config htip steps
  obtain ⟨b', hb', hhash'⟩ := Option.map_eq_some_iff.mp hsame
  obtain ⟨hmem', hcanonical', hnumber'⟩ := (canonicalAt_iff hconsistent).mp hb'
  change b'.number = plan.toBlock at hnumber'
  have heq := hafter.canonical_before b' hmem' hcanonical' last hlast hhash'.symm
  subst heq
  -- the range is the same as at the last call, so its logs are
  have hold : OnChain config calls.tip entry ∧ entry.blockNumber ≤ plan.toBlock := by
    obtain ⟨hon, hheight⟩ := (mem_logsUpTo hconsistent).mp hentry
    refine ⟨?_, hheight⟩
    obtain ⟨tx, block, hemitted⟩ := hon
    have hon : OnChain config (runSteps (chainStep config) calls.tip steps) entry :=
      ⟨tx, block, hemitted⟩
    obtain rfl := hemitted.entry_eq
    change block.number ≤ plan.toBlock at hheight
    have hblock := hafter.same_below htip hconsistent hlast hmem' hlastCanonical
      hemitted.block_mem hemitted.canonical (by omega)
    exact hafter.onChain_before hon ⟨block, hblock, rfl⟩
  have hwatch' : Watches config settings db entry.fromAddress entry.toAddress :=
    (@watches_congr config settings db (mid.moveCursor (plan.state settings))
      hmid.frame.2 _ _).mp hwatch
  apply (scanned_isSome hlogs hlater hplan hmid hold.1 hwatch').mpr
  rw [hbounds]
  exact hcovered entry ((mem_logsUpTo htip).mpr hold) hfrom hwatch'

theorem CursorTrue.rangeHeld (hlogs : Consistent calls.logs) (htip : Consistent calls.tip)
    (hlater : Later calls.logs calls.tip)
    (hplan : scanPlan (MockChain.adapter config) settings calls db = .ok (some plan))
    (hmid : UpsertedAll scope newId plan.logs db mid)
    (htrue : CursorTrue config settings
      (scanRange (MockChain.adapter config) settings calls db).1 calls.tip
      (mid.moveCursor (plan.state settings))) :
    RangeHeld config settings calls db := by
  obtain ⟨head, cursor, fetched, hhead, _, hcursor, hto, _, _, _, htipHash⟩ :=
    scanPlan_some hplan
  have hbounds : scanRange (MockChain.adapter config) settings calls db =
      (cursor + 1, plan.toBlock) := by
    simp [scanRange, hhead, hcursor, hto]
  obtain ⟨state, hash, hstate, hhash, hcovered⟩ := htrue
  rw [Db.moveCursor_find?, Option.some.injEq] at hstate
  subst hstate
  have htipHash := MockChain.getBlockHash_ok htipHash
  have hsame : (canonicalAt calls.tip plan.toBlock).map MockChain.MockBlock.hash =
      some hash := by
    rw [← htipHash]
    exact hhash
  refine ⟨?_, ?_⟩
  · obtain ⟨b, hb, _⟩ := Option.map_eq_some_iff.mp hsame
    obtain ⟨hmem, hcanonical, hnumber⟩ := (canonicalAt_iff htip).mp hb
    rw [hbounds]
    change plan.toBlock ≤ _
    rw [← hnumber]
    exact MockChain.number_le_headNumber hmem hcanonical
  · intro entry hentry hfrom hwatch
    rw [hbounds] at hentry
    have hwatch' : Watches config settings (mid.moveCursor (plan.state settings))
        entry.fromAddress entry.toAddress :=
      (@watches_congr config settings db (mid.moveCursor (plan.state settings))
        hmid.frame.2 _ _).mpr hwatch
    have hrow := hcovered [] hsame entry hentry hfrom hwatch'
    have hread := (scanned_isSome hlogs hlater hplan hmid
      ((mem_logsUpTo htip).mp hentry).1 hwatch).mp hrow
    rw [hbounds] at hread ⊢
    exact hread

/-- After a run which writes the cursor its hash vouches for the scanned range if and
only if the chain kept the range from the call for the logs to the last call. -/
theorem cursor_true_iff_range_held {config : MockChain.Config} {settings : Settings}
    {scope : Scope} {newId : TransferLog → Uuid} {db : Db} {chain : MockChain.State}
    (hchain : Reachable config chain) (afterHead afterCursor afterLogs : List ChainStep)
    (hwritten : cursorWritten (MockChain.adapter config) settings scope newId
      (.interleaved config chain afterHead afterCursor afterLogs) db = true) :
    let calls := ScanCalls.interleaved config chain afterHead afterCursor afterLogs
    CursorTrue config settings (scanRange (MockChain.adapter config) settings calls db).1
        calls.tip (scanOnce (MockChain.adapter config) settings scope newId calls db).2 ↔
      RangeHeld config settings calls db := by
  intro calls
  have hcursor := Later.run config hchain.consistent afterHead
  have hlogs := Later.run config hcursor.2 afterCursor
  have htip := Later.run config hlogs.2 afterLogs
  obtain ⟨plan, mid, hplan, hmid, hresult⟩ := cursorWritten_cases hwritten
  rw [hresult]
  exact ⟨fun htrue => htrue.rangeHeld hlogs.2 htip.2 htip.1 hplan hmid,
    fun hheld => hheld.cursorTrue hlogs.2 htip.2 htip.1 hplan hmid⟩

end Run

/-! ### A fork between the logs and the hash -/

/-- A deposit waits while the scanner reads the chain up to block 3; before the last
call block 3 is replaced by one with the deposit. -/
@[irreducible] def forkedCalls : ScanCalls MockChain.State :=
  .interleaved .bsc
    (runSteps (chainStep .bsc) .empty [.ensureStarted, .mineBlock (someUuid 0),
      .mineBlock (someUuid 1),
      .simulateDeposit custodyAddress.address.val 500 "deposit-1"])
    [] [] [.orphan 1 [], .mineBlock (someUuid 2)]

@[irreducible] def forkedRun : RunEnd × Db :=
  scanOnce (MockChain.adapter .bsc) .standard someScope (fun _ => someUuid 100) forkedCalls
    .custody

theorem forked_run_reads :
    (scanRange (MockChain.adapter .bsc) .standard forkedCalls .custody).1 = 1 ∧
      forkedRun.1 = .completed ∧
      ∃ state ∈ forkedRun.2.scanState.rows,
        forkedRun.2.scanState.find? "BSC" = some state ∧
        (canonicalAt forkedCalls.tip state.lastScannedBlock).map
          MockChain.MockBlock.hash = state.lastScannedHash ∧
        ∃ entry ∈ logsUpTo .bsc forkedCalls.tip state.lastScannedBlock,
          1 ≤ entry.blockNumber ∧
          Watches .bsc .standard forkedRun.2 entry.fromAddress entry.toAddress ∧
          forkedRun.2.deposits.find? entry.identity = none := by
  decide +kernel

/-- The cursor carries the hash of the block of a deposit which has no row. -/
theorem forked_run_vouches_for_unread_block :
    ¬CursorTrue .bsc .standard
      (scanRange (MockChain.adapter .bsc) .standard forkedCalls .custody).1
      forkedCalls.tip forkedRun.2 := by
  obtain ⟨hfrom, _, state, _, hstate, hsame, entry, hentry, hpositive, hwatch, hnone⟩ :=
    forked_run_reads
  rintro ⟨state', hash, hstate', hhash, hcovered⟩
  have hread : forkedRun.2.scanState.find? "BSC" = some state' := hstate'
  rw [hstate, Option.some.injEq] at hread
  subst hread
  have hrow := hcovered [] (hsame.trans hhash) entry hentry (by rw [hfrom]; exact hpositive)
    hwatch
  rw [hnone] at hrow
  cases hrow

theorem quiet_scan_vouches :
    CursorTrue .bsc .standard
      (scanRange (MockChain.adapter .bsc) .standard
        (.interleaved .bsc (depositChain 2) [] [] []) .custody).1
      (depositChain 2) (scannedDb 2) := by
  have hreachable := depositChain_reachable 2
  have hwritten : cursorWritten (MockChain.adapter .bsc) .standard someScope
      (fun _ => someUuid 100) (.interleaved .bsc (depositChain 2) [] [] []) .custody =
        true := by
    decide +kernel
  have hheld : RangeHeld .bsc .standard (.interleaved .bsc (depositChain 2) [] [] [])
      .custody := by
    decide +kernel
  have htrue := (cursor_true_iff_range_held hreachable [] [] [] hwritten).mpr hheld
  unfold scannedDb
  exact htrue
end CryptoWallet.Blockchain
