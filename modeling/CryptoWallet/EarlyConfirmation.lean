import CryptoWallet.DepositConfirmation
import CryptoWallet.OutgoingCases

/-!
# Confirmations while the chain moves

Both watchers read the head once, at the start of a run, and the receipts later.
A reorg in between takes the head down before it is built up again, and then the
confirmations counted from the old head are more than the chain has.
-/

namespace CryptoWallet.Blockchain

open MockChain (Consistent Reachable canonicalAt headNumber getReceipt)

def confirmationsAt (head blockNumber : Nat) : Nat := head + 1 - blockNumber

/-- The receipt was read in a canonical block which was deep enough. -/
def ReadInTime (settings : Settings) (chain : MockChain.State) (txHash : ChainHash) :
    Prop :=
  ∃ receipt, getReceipt chain txHash = .ok (some receipt) ∧
    (canonicalAt chain receipt.blockNumber).map MockChain.MockBlock.hash =
      some receipt.blockHash ∧
    settings.confirmationsRequired ≤
      confirmationsAt (headNumber chain) receipt.blockNumber

/-- The fall of the head takes a block below the required depth. -/
def HeadFell (settings : Settings) (head : Nat) (chain : MockChain.State)
    (blockNumber : Nat) : Prop :=
  confirmationsAt (headNumber chain) blockNumber < settings.confirmationsRequired ∧
    settings.confirmationsRequired ≤ confirmationsAt head blockNumber

theorem receipt_canonical {s : MockChain.State} (hs : Consistent s) {txHash : ChainHash}
    {receipt : TxReceipt} (h : getReceipt s txHash = .ok (some receipt)) :
    (canonicalAt s receipt.blockNumber).map MockChain.MockBlock.hash =
      some receipt.blockHash := by
  cases hup : MockChain.assertRpcUp s with
  | error e => simp [getReceipt, hup, bind, Except.bind] at h
  | ok _ =>
      rw [MockChain.getReceipt_up hup, Except.ok.injEq] at h
      exact (MockChain.view .bsc s hs hup).receipt_canonical h

/-! ## Deposits -/

/-- Every deposit the run promoted, which is when its event is enqueued. -/
def DepositsInTime (settings : Settings)
    (calls : DepositId → LookupCalls MockChain.State) (db db' : Db) : Prop :=
  ∀ id d d', db.deposits.find? id = some d → d.status ≠ .confirmed →
    db'.deposits.find? id = some d' → d'.status = .confirmed →
    ReadInTime settings (calls id).receipt d.txHash

/-- The head does not fall past the threshold of a deposit which is looked up. -/
def DepositHeadsHeld (config : MockChain.Config) (settings : Settings)
    (headCall : MockChain.State) (calls : DepositId → LookupCalls MockChain.State)
    (db : Db) : Prop :=
  ∀ head id d place, MockChain.getBlockNumber headCall = .ok head → head ≠ 0 →
    id ∈ watchlist settings head db → db.deposits.find? id = some d →
    d.status = .detected →
    locate (MockChain.adapter config) (calls id) d = .ok (some place) →
    ¬HeadFell settings head (calls id).receipt place.1

/-- The log is found in the block of the receipt. -/
theorem locate_some {config : MockChain.Config} {calls : LookupCalls MockChain.State}
    (hlogs : Consistent calls.logs) {d : Deposit} {place : Nat × ChainHash}
    (h : locate (MockChain.adapter config) calls d = .ok (some place)) :
    ∃ receipt, getReceipt calls.receipt d.txHash = .ok (some receipt) ∧
      receipt.blockNumber = place.1 := by
  unfold locate at h
  cases hreceipt : (MockChain.adapter config).getReceipt calls.receipt d.txHash with
  | error e => simp [hreceipt, bind, Except.bind] at h
  | ok found =>
      cases found with
      | none => simp [hreceipt, bind, Except.bind, pure, Except.pure] at h
      | some receipt =>
          refine ⟨receipt, hreceipt, ?_⟩
          simp only [hreceipt, bind, Except.bind] at h
          split at h
          next =>
            simp only [pure, Except.pure, Except.ok.injEq, Option.some.injEq] at h
            rw [← h]
          next =>
            cases hentries : (MockChain.adapter config).getTransferLogs calls.logs
                receipt.blockNumber receipt.blockNumber [d.toAddress.val] with
            | error e => simp [hentries] at h
            | ok entries =>
                simp only [hentries, pure, Except.pure, Except.ok.injEq,
                  Option.map_eq_some_iff] at h
                obtain ⟨entry, hentry, rfl⟩ := h
                have hmem := List.mem_of_find?_eq_some hentry
                have hrange := ((MockChain.mem_getTransferLogs hlogs hentries).mp hmem).2.1
                dsimp only
                omega

theorem deposits_in_time_of_held {config : MockChain.Config} {settings : Settings}
    {scope : Scope} {headCall : MockChain.State}
    {calls : DepositId → LookupCalls MockChain.State} {db : Db}
    (hcalls : ∀ id, Consistent (calls id).receipt ∧ Consistent (calls id).logs)
    (hheld : DepositHeadsHeld config settings headCall calls db) :
    DepositsInTime settings calls db
      (watchDepositsOnce (MockChain.adapter config) settings scope headCall calls db).2 := by
  intro id d d' hd hopen hd' hconfirmed
  obtain ⟨head, number, hash, hhead, hpositive, hlist, hfound, hripe, _⟩ :=
    watchDepositsOnce_promotes hd hopen hd' hconfirmed
  obtain ⟨receipt, hreceipt, hnumber⟩ := locate_some (hcalls _).2 hfound
  refine ⟨receipt, hreceipt, receipt_canonical (hcalls _).1 hreceipt, ?_⟩
  have hnot := hheld head id d (number, hash) hhead hpositive hlist hd hripe.1 hfound
  rw [hnumber]
  by_contra hshallow
  exact hnot ⟨Nat.lt_of_not_le hshallow, hripe.2⟩

theorem held_of_deposits_in_time {config : MockChain.Config} {settings : Settings}
    {scope : Scope} {headCall : MockChain.State}
    {calls : DepositId → LookupCalls MockChain.State} {db : Db}
    (hcalls : ∀ id, Consistent (calls id).receipt ∧ Consistent (calls id).logs)
    (hrun : (watchDepositsOnce (MockChain.adapter config) settings scope headCall calls
      db).1 = .completed)
    (hintime : DepositsInTime settings calls db
      (watchDepositsOnce (MockChain.adapter config) settings scope headCall calls db).2) :
    DepositHeadsHeld config settings headCall calls db := by
  intro head id d place hhead hpositive hlist hd hdetected hfound hfell
  have hcall : (MockChain.adapter config).getBlockNumber headCall = .ok head := hhead
  unfold watchDepositsOnce at hrun hintime
  simp only [hcall, if_neg hpositive] at hrun hintime
  obtain ⟨found, before, after, hfound', hreverified, hbefore, hrow, _⟩ :=
    reverifyAll_turn (watchlist_nodup settings head db) hrun hlist hd
  rw [hfound, Except.ok.injEq] at hfound'
  subst hfound'
  have hripe : d.ripe settings head place.1 := ⟨hdetected, hfell.2⟩
  obtain ⟨blockNumber, blockHash⟩ := place
  have hkey := Table.key_of_find? hd
  subst hkey
  cases hreverified with
  | confirmed _ _ _ payload hpayload outbox houtbox =>
      have hfinal := hrow.trans (Table.find?_replace_of_key before.deposits
        (Eq.refl ((d.movedTo head blockNumber blockHash).confirmedAtTime
          scope.now).identity) hbefore)
      obtain ⟨receipt, hreceipt, _, hdeep⟩ := hintime d.identity d _ hd
        (by rw [hdetected]; simp) hfinal rfl
      obtain ⟨receipt', hreceipt', hnumber⟩ := locate_some (hcalls _).2 hfound
      rw [hreceipt, Except.ok.injEq, Option.some.injEq] at hreceipt'
      subst hreceipt'
      rw [hnumber] at hdeep
      exact Nat.not_le_of_lt hfell.1 hdeep
  | moved _ _ hunripe => exact hunripe hripe

/-! ## Outgoing transactions -/

/-- Every record the run promoted. -/
def RecordsInTime (settings : Settings) (calls : Uuid → MockChain.State) (db db' : Db) :
    Prop :=
  ∀ id record record', db.outgoing.find? id = some record → record.status ≠ .confirmed →
    db'.outgoing.find? id = some record' → record'.status = .confirmed →
    ∃ txHash, record.txHash = some txHash ∧ ReadInTime settings (calls id) txHash

/-- The head does not fall past the threshold of a record which is checked. -/
def RecordHeadsHeld (settings : Settings) (headCall : MockChain.State)
    (calls : Uuid → MockChain.State) (db : Db) : Prop :=
  ∀ head id record txHash receipt, MockChain.getBlockNumber headCall = .ok head →
    id ∈ candidates settings head db → db.outgoing.find? id = some record →
    record.status = .broadcasted → record.txHash = some txHash →
    getReceipt (calls id) txHash = .ok (some receipt) → receipt.status ≠ 0 →
    ¬HeadFell settings head (calls id) receipt.blockNumber

theorem records_in_time_of_held {config : MockChain.Config} {settings : Settings}
    {scope : Scope} {headCall : MockChain.State} {calls : Uuid → MockChain.State} {db : Db}
    (hcalls : ∀ id, Consistent (calls id))
    (hheld : RecordHeadsHeld settings headCall calls db) :
    RecordsInTime settings calls db
      (watchOutgoingOnce (MockChain.adapter config) settings scope headCall calls db).2 := by
  intro id record record' hrecord hopen hrecord' hconfirmed
  have hsame : ∀ r, db.outgoing.find? id = some r → r.status = .confirmed → False := by
    intro r hr hstatus
    rw [hrecord, Option.some.injEq] at hr
    exact hopen (hr ▸ hstatus)
  unfold watchOutgoingOnce at hrecord'
  split at hrecord'
  next => exact (hsame record' hrecord' hconfirmed).elim
  next => exact (hsame record' hrecord' hconfirmed).elim
  next head hhead =>
    rcases visitAll_row_cases (checkOne_ownRow (MockChain.adapter config) settings scope
        calls head) (candidates_nodup settings head db) db id with
      hkept | ⟨hlist, before, hbefore, hrow⟩
    · exact (hsame record' (hkept.symm.trans hrecord') hconfirmed).elim
    · have hstart := hbefore.trans hrecord
      have hfinal := hrow.symm.trans hrecord'
      rcases checkOne_cases (MockChain.adapter config) settings scope (calls id) head id
          before with
        hraised | ⟨_, hskipped⟩ | ⟨r, seen, receipt, outcome, after, hr, hseen, hreceipt,
          hchecked, hreturned⟩
      · rw [hraised] at hfinal
        exact (hsame record' (hbefore.symm.trans hfinal) hconfirmed).elim
      · rw [hskipped] at hfinal
        exact (hsame record' (hbefore.symm.trans hfinal) hconfirmed).elim
      · rw [hstart, Option.some.injEq] at hr
        subst hr
        rw [hreturned] at hfinal
        have hkey := Table.key_of_find? hstart
        subst hkey
        obtain ⟨found, rfl, hripe⟩ := hchecked.confirms hstart hopen hfinal hconfirmed
        obtain ⟨txHash, htxHash, rfl⟩ := Option.map_eq_some_iff.mp hseen
        refine ⟨txHash, htxHash, found, hreceipt,
          receipt_canonical (hcalls _) hreceipt, ?_⟩
        have hnot := hheld head record.transferId record txHash found hhead hlist hrecord
          hripe.1 htxHash hreceipt hripe.2.1
        by_contra hshallow
        exact hnot ⟨Nat.lt_of_not_le hshallow, hripe.2.2⟩

theorem held_of_records_in_time {config : MockChain.Config} {settings : Settings}
    {scope : Scope} {headCall : MockChain.State} {calls : Uuid → MockChain.State} {db : Db}
    (hrun : (watchOutgoingOnce (MockChain.adapter config) settings scope headCall calls
      db).1 = .completed)
    (hintime : RecordsInTime settings calls db
      (watchOutgoingOnce (MockChain.adapter config) settings scope headCall calls db).2) :
    RecordHeadsHeld settings headCall calls db := by
  intro head id record txHash receipt hhead hlist hrecord hstatus htxHash hreceipt
    hsuccess hfell
  have hcall : (MockChain.adapter config).getBlockNumber headCall = .ok head := hhead
  unfold watchOutgoingOnce at hrun hintime
  simp only [hcall] at hrun hintime
  obtain ⟨before, outcome, rest, hbefore, hvisit, _, hrow⟩ :=
    visitAll_turn (checkOne_ownRow (MockChain.adapter config) settings scope calls head)
      (candidates_nodup settings head db) hrun hlist
  have hstart := hbefore.trans hrecord
  rcases checkOne_cases (MockChain.adapter config) settings scope (calls id) head id
      before with
    hraised | ⟨hnone, _⟩ | ⟨r, seen, receipt', outcome', after, hr, hseen, hreceipt',
      hchecked, hreturned⟩
  · rw [hraised] at hvisit
    cases hvisit
  · simp [hstart, OutgoingTransaction.seen, htxHash] at hnone
  · rw [hstart, Option.some.injEq] at hr
    subst hr
    obtain ⟨txHash', htxHash', rfl⟩ := Option.map_eq_some_iff.mp hseen
    rw [htxHash, Option.some.injEq] at htxHash'
    subst htxHash'
    have hread : getReceipt (calls id) txHash = .ok receipt' := hreceipt'
    rw [hreceipt, Except.ok.injEq] at hread
    subst hread
    have hripe : record.ripe settings head receipt := ⟨hstatus, hsuccess, hfell.2⟩
    have hkey := Table.key_of_find? hrecord
    subst hkey
    rw [hreturned] at hrow
    have hopen : record.status ≠ .confirmed := by
      rw [hstatus]
      simp
    cases hchecked with
    | reverted _ hreverted => exact hsuccess hreverted
    | confirmed _ _ payload hpayload db' hannounces =>
        obtain ⟨outbox, _, rfl⟩ := hannounces
        have hfinal := hrow.trans (Table.find?_replace_of_key before.outgoing
          (Eq.refl (record.minedIn head receipt).confirmed.transferId) hstart)
        obtain ⟨txHash', htxHash', receipt', hreceipt', _, hdeep⟩ :=
          hintime record.transferId record _ hrecord hopen hfinal rfl
        rw [htxHash, Option.some.injEq] at htxHash'
        subst htxHash'
        rw [hreceipt, Except.ok.injEq, Option.some.injEq] at hreceipt'
        subst hreceipt'
        exact Nat.not_le_of_lt hfell.1 hdeep
    | mined _ _ hunripe => exact hunripe hripe

/-- However the chain moves between the calls of one run, nothing is confirmed
too early if no head falls past a threshold; and a completed run which confirms
nothing too early met no such fall. -/
theorem confirmed_in_time_iff_head_held {config : MockChain.Config} {settings : Settings}
    {scope : Scope} {db : Db} {headCall : MockChain.State}
    {depositCalls : DepositId → LookupCalls MockChain.State}
    {recordCalls : Uuid → MockChain.State}
    (hdeposits : ∀ id, Reachable config (depositCalls id).receipt ∧
      Reachable config (depositCalls id).logs)
    (hrecords : ∀ id, Reachable config (recordCalls id)) :
    let deposits := watchDepositsOnce (MockChain.adapter config) settings scope headCall
      depositCalls db
    let records := watchOutgoingOnce (MockChain.adapter config) settings scope headCall
      recordCalls db
    (DepositHeadsHeld config settings headCall depositCalls db →
        DepositsInTime settings depositCalls db deposits.2) ∧
      (RecordHeadsHeld settings headCall recordCalls db →
        RecordsInTime settings recordCalls db records.2) ∧
      (deposits.1 = .completed → (DepositsInTime settings depositCalls db deposits.2 ↔
        DepositHeadsHeld config settings headCall depositCalls db)) ∧
      (records.1 = .completed → (RecordsInTime settings recordCalls db records.2 ↔
        RecordHeadsHeld settings headCall recordCalls db)) := by
  intro deposits records
  have hreach : ∀ s, Reachable config s → Consistent s := by
    rintro s ⟨steps, rfl⟩
    exact MockChain.reachable_consistent config steps
  have hdepositCalls : ∀ id, Consistent (depositCalls id).receipt ∧
      Consistent (depositCalls id).logs :=
    fun id => ⟨hreach _ (hdeposits id).1, hreach _ (hdeposits id).2⟩
  have hrecordCalls : ∀ id, Consistent (recordCalls id) :=
    fun id => hreach _ (hrecords id)
  refine ⟨deposits_in_time_of_held hdepositCalls, records_in_time_of_held hrecordCalls,
    ?_, ?_⟩
  · intro hrun
    exact ⟨held_of_deposits_in_time hdepositCalls hrun,
      deposits_in_time_of_held hdepositCalls⟩
  · intro hrun
    exact ⟨held_of_records_in_time hrun, records_in_time_of_held hrecordCalls⟩

/-! ### A block taken off between two calls -/

/-- The head is read, then the top block is orphaned, then the receipt is read. -/
@[irreducible] def shortenedChain : MockChain.State :=
  MockChain.chainStep .bsc (.orphan 1 []) (depositChain 2)

def shortenedRun : RunEnd × Db :=
  watchDepositsOnce (MockChain.adapter .bsc) .standard someScope (depositChain 2)
    (fun _ => .fixed shortenedChain) (scannedDb 2)

theorem shortened_run_confirms :
    ∃ d ∈ (scannedDb 2).deposits.rows, d.status = .detected ∧
      (scannedDb 2).deposits.find? d.identity = some d ∧
      (∃ d' ∈ shortenedRun.2.deposits.rows, d'.identity = d.identity ∧
        d'.status = .confirmed) ∧
      ∃ number ∈ [d.blockNumber], (MockChain.receiptOf shortenedChain d.txHash).map
          TxReceipt.blockNumber = some number ∧
        confirmationsAt (headNumber shortenedChain) number <
          Settings.standard.confirmationsRequired := by
  decide +kernel

/-- With three confirmations required the deposit is confirmed at two. -/
theorem shortened_run_confirms_early :
    ¬DepositsInTime .standard (fun _ => .fixed shortenedChain) (scannedDb 2)
      shortenedRun.2 := by
  intro hintime
  obtain ⟨d, _, hdetected, hd, ⟨d', hd', hkey, hconfirmed⟩, number, _, hnumber,
    hshallow⟩ := shortened_run_confirms
  have hopen : d.status ≠ .confirmed := by
    rw [hdetected]
    simp
  have hfound := shortenedRun.2.deposits.find?_of_mem hd'
  rw [hkey] at hfound
  obtain ⟨receipt, hreceipt, _, hdeep⟩ :=
    hintime d.identity d d' hd hopen hfound hconfirmed
  have hup : MockChain.assertRpcUp shortenedChain = .ok () := by decide +kernel
  have hread := MockChain.getReceipt_up hup d.txHash
  rw [LookupCalls.fixed] at hreceipt
  rw [hreceipt, Except.ok.injEq] at hread
  rw [← hread, Option.map_some, Option.some.injEq] at hnumber
  rw [hnumber] at hdeep
  exact Nat.not_le_of_lt hshallow hdeep

theorem quiet_run_confirms_in_time :
    DepositsInTime .standard (fun _ => .fixed (depositChain 2)) (scannedDb 2)
      (watchDepositsOnce (MockChain.adapter .bsc) .standard someScope (depositChain 2)
        (fun _ => .fixed (depositChain 2)) (scannedDb 2)).2 := by
  have hreach := depositChain_reachable 2
  have hdeposits : ∀ id : DepositId,
      Reachable .bsc ((fun _ => LookupCalls.fixed (depositChain 2)) id).receipt ∧
        Reachable .bsc ((fun _ => LookupCalls.fixed (depositChain 2)) id).logs :=
    fun _ => ⟨hreach, hreach⟩
  have hrecords : ∀ id : Uuid, Reachable .bsc ((fun _ => depositChain 2) id) :=
    fun _ => hreach
  apply (confirmed_in_time_iff_head_held hdeposits hrecords).1
  intro head id d place hhead _ _ _ _ _ hfell
  rw [MockChain.getBlockNumber_ok hhead] at hfell
  exact Nat.not_le_of_lt hfell.1 hfell.2

end CryptoWallet.Blockchain
