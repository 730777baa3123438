import CryptoWallet.CustodyTransfers
import CryptoWallet.ScannerCompleteness

/-!
# A quiet chain is scanned to its head

While the chain stands still and the node answers, no run of the scanner raises, and each
run takes the cursor on by a batch.  So the scanner reaches the head, and one run of the
watcher then promotes the deposits which are deep enough.
-/

namespace CryptoWallet

/-! ## What the node holds fits the columns of the service -/

namespace MockChain

structure Storable (config : Config) (s : State) : Prop where
  indices : LogIndicesFit s
  amounts : ∀ tx ∈ submissions s,
    tx.asset = config.asset ∧ 0 < tx.amount ∧ tx.amount < 10 ^ 78

theorem Storable.submit {config : Config} {s : State} (h : Storable config s)
    {isMint : Bool} {request : SendRequest}
    (hindices : LogIndicesFit (MockChain.submit config isMint request s).2) :
    Storable config (MockChain.submit config isMint request s).2 := by
  have hsubmit := submit_submitted config isMint request s
  generalize MockChain.submit config isMint request s = result at hsubmit hindices ⊢
  obtain ⟨answer, s'⟩ := result
  refine ⟨hindices, ?_⟩
  cases hsubmit with
  | refused e => exact h.amounts
  | known tx hmem hhash => exact h.amounts
  | taken tx hhash hsubmitted hmint hfrom hasset hamount transactions hinsert =>
      intro r hr
      obtain ⟨row, hrow, rfl⟩ := List.mem_map.mp hr
      rcases (Table.mem_insert? hinsert).mp hrow with hold | rfl
      · exact h.amounts _ (mem_submissions hold)
      · rw [hsubmitted]
        exact ⟨hasset, hamount⟩

theorem Storable.step {config : Config} {s : State} (hs : Consistent s)
    (h : Storable config s) (step : ChainStep) : Storable config (chainStep config step s) := by
  have hindices := chainStep_logIndicesFit config hs h.indices step
  cases hrequest : step.request with
  | none =>
      refine ⟨hindices, ?_⟩
      rw [chainStep_submissions config hs hrequest]
      exact h.amounts
  | some submission =>
      obtain ⟨isMint, request⟩ := submission
      rw [chainStep_submit config s hrequest] at hindices ⊢
      exact h.submit hindices

theorem Reachable.storable {config : Config} {s : State} (h : Reachable config s) :
    Storable config s := by
  obtain ⟨steps, rfl⟩ := h
  have hboth : Consistent (runSteps (chainStep config) .empty steps) ∧
      Storable config (runSteps (chainStep config) .empty steps) := by
    apply runSteps_preserves (I := fun s => Consistent s ∧ Storable config s)
    · exact fun s step hs => ⟨chainStep_consistent config s step hs.1, hs.2.step hs.1 step⟩
    · refine ⟨empty_consistent, ?_, ?_⟩
      · intro tx htx
        cases htx
      · intro tx htx
        cases htx
  exact hboth.2

end MockChain

namespace Blockchain

open Tx
open MockChain (ChainStep Consistent OnChain canonicalAt canonicalAt_iff headNumber
  mem_submissions)

theorem recordable_of_storable {config : MockChain.Config} {chain : MockChain.State}
    (h : MockChain.Storable config chain) (hasset : config.asset = "USDT")
    {entry : TransferLog} (hentry : OnChain config chain entry) : Recordable entry := by
  obtain ⟨tx, block, hemitted⟩ := hentry
  obtain rfl := hemitted.entry_eq
  obtain ⟨hsame, hpositive, hfits⟩ := h.amounts _ (mem_submissions hemitted.tx_mem)
  have husdt : tx.asset = "USDT" := hsame.trans hasset
  have hindex : tx.logIndex.getD 0 < 2 ^ 31 := by
    cases hvalue : tx.logIndex with
    | none => decide
    | some logIndex =>
        have hbound := h.indices tx hemitted.tx_mem logIndex hvalue
        unfold MockChain.maxTxsPerBlock at hbound
        rw [Option.getD_some]
        omega
  refine ⟨config.network.property.1, husdt, fun newId => ?_⟩
  have husdtFits : varchar 16 tx.asset = .ok ⟨"USDT", by decide, by decide⟩ := by
    rw [husdt]
    exact varchar_ok (by decide) (by decide)
  exact proposedDeposit_succeeds newId
    (varchar_ok config.network.property.1 config.network.property.2) husdtFits
    (varchar_ok tx.toAddress.property.1 tx.toAddress.property.2)
    (varchar_ok tx.fromAddress.property.1 tx.fromAddress.property.2) ⟨hindex, hfits⟩ hpositive

/-! ## Where the scanner continues -/

/-- The cursor, or behind it if the chain moved under it. -/
def position (settings : Settings) (db : Db) (chain : MockChain.State) : Nat :=
  match db.scanState.find? settings.network with
  | none => 0
  | some state =>
    match state.lastScannedHash with
    | none => state.lastScannedBlock
    | some lastHash =>
      if (canonicalAt chain state.lastScannedBlock).map MockChain.MockBlock.hash =
          some lastHash then state.lastScannedBlock
      else state.lastScannedBlock - settings.reorgSafetyBlocks

section Scan

variable {config : MockChain.Config} {settings : Settings} {db : Db}
  {chain : MockChain.State}

theorem scanCursor_up (hup : MockChain.assertRpcUp chain = .ok ()) :
    scanCursor (MockChain.adapter config) settings chain
      (db.scanState.find? settings.network) = .ok (position settings db chain) := by
  unfold scanCursor position
  cases db.scanState.find? settings.network with
  | none => rfl
  | some state =>
      cases hhash : state.lastScannedHash with
      | none => simp only [hhash, pure, Except.pure]
      | some lastHash =>
          simp only [hhash, MockChain.adapter, MockChain.getBlockHash, hup, bind, Except.bind,
            pure, Except.pure]
          split <;> rfl

theorem position_scanned {mid : Db} {plan : ScanPlan}
    (htip : (canonicalAt chain plan.toBlock).map MockChain.MockBlock.hash = plan.tipHash) :
    position settings (mid.moveCursor (plan.state settings)) chain = plan.toBlock := by
  unfold position
  rw [Db.moveCursor_find?]
  simp only [ScanPlan.state]
  cases hhash : plan.tipHash with
  | none => rfl
  | some hash => simp [htip, hhash]

/-- While the node answers, the scanner learns all it asks for. -/
theorem scanPlan_answers (hchain : Consistent chain)
    (hup : MockChain.assertRpcUp chain = .ok ()) :
    ∃ plan, scanPlan (MockChain.adapter config) settings (.fixed chain) db = .ok plan := by
  have hshows := MockChain.shows_view config hchain hup
  have hfetched : ∀ fromBlock toBlock, ∃ logs,
      fetchLogs (MockChain.adapter config) chain fromBlock toBlock (activeAddresses db) =
        .ok logs := by
    intro fromBlock toBlock
    unfold fetchLogs
    split
    · exact ⟨[], rfl⟩
    · obtain ⟨logs, hlogs, _⟩ := hshows.logs fromBlock toBlock (activeAddresses db)
      exact ⟨logs, hlogs⟩
  simp only [scanPlan, ScanCalls.fixed, hshows.head, scanCursor_up hup, bind, Except.bind]
  split
  · exact ⟨none, rfl⟩
  · split
    · exact ⟨none, rfl⟩
    · obtain ⟨logs, hlogs⟩ := hfetched _ _
      rw [hlogs]
      simp only [hshows.hash]
      exact ⟨_, rfl⟩

/-- The run of the scanner gets to its end. -/
theorem scanOnce_completes (hchain : Consistent chain)
    (hstorable : MockChain.Storable config chain) (hasset : config.asset = "USDT")
    (hup : MockChain.assertRpcUp chain = .ok ()) (hassets : db.AssetsKnown) (scope : Scope)
    (newId : TransferLog → Uuid) :
    (scanOnce (MockChain.adapter config) settings scope newId (.fixed chain) db).1 =
      .completed := by
  obtain ⟨plan?, hplan⟩ : ∃ plan?,
      scanPlan (MockChain.adapter config) settings (.fixed chain) db = .ok plan? :=
    scanPlan_answers hchain hup
  unfold scanOnce
  rw [hplan]
  cases plan? with
  | none => rfl
  | some plan =>
      obtain ⟨_, _, logs, _, _, _, _, _, hlogs, hkept, _⟩ := scanPlan_some hplan
      have hfits : ∀ entry ∈ plan.logs, Recordable entry := by
        intro entry hentry
        have honChain := ((mem_fetchLogs hchain hlogs hkept).mp hentry).1
        exact recordable_of_storable hstorable hasset honChain
      have hsucceeds : Ensures (scanTx settings scope newId plan) db (fun _ _ => True)
          fun _ => False := by
        unfold scanTx
        apply Ensures.bind (upsertDeposits_succeeds scope newId hfits hassets)
        intro detected mid _
        apply Ensures.modifyDb_bind
        exact Ensures.pure trivial
      obtain ⟨detected, db', hcommit, _⟩ := hsucceeds.commit_returns
      simp only [hcommit]

end Scan

/-- The watcher finds a log where it is now. -/
theorem Coverage.locate_found {config : MockChain.Config} {settings : Settings} {db : Db}
    {seen chain : MockChain.State} (h : Coverage config settings db seen chain) {d : Deposit}
    (hd : d ∈ db.deposits.rows) {found : Option (Nat × ChainHash)}
    (hfound : locate (MockChain.adapter config) (.fixed chain) d = .ok found)
    {entry : TransferLog} (hentry : OnChain config chain entry)
    (hid : entry.identity = d.identity) :
    found = some (entry.blockNumber, entry.blockHash) := by
  have hsome : found ≠ none := by
    intro hnone
    rw [hnone] at hfound
    exact h.locate_none hd hfound hentry hid
  simp only [TransferLog.identity, Deposit.identity, Prod.mk.injEq] at hid
  obtain ⟨_, hhash, _⟩ := hid
  unfold locate at hfound
  simp only [LookupCalls.fixed, ← hhash] at hfound
  cases hreceipt : (MockChain.adapter config).getReceipt chain entry.txHash with
  | error e => simp [hreceipt, bind, Except.bind] at hfound
  | ok receipt =>
      have hcall := MockChain.getReceipt_onChain h.chain_consistent hentry hreceipt
      subst hcall
      simp only [hreceipt, bind, Except.bind] at hfound
      split at hfound
      · simp only [pure, Except.pure, Except.ok.injEq] at hfound
        exact hfound.symm
      · cases hentries : (MockChain.adapter config).getTransferLogs chain
            entry.blockNumber entry.blockNumber [d.toAddress.val] with
        | error e => simp [hentries] at hfound
        | ok entries =>
            simp only [hentries, pure, Except.pure, Except.ok.injEq] at hfound
            cases hfind : entries.find? _ with
            | none =>
                rw [hfind] at hfound
                exact (hsome hfound.symm).elim
            | some other =>
                rw [hfind] at hfound
                have hmatch := List.find?_some hfind
                simp only [Bool.and_eq_true, decide_eq_true_eq] at hmatch
                have hother := ((MockChain.mem_getTransferLogs h.chain_consistent
                  hentries).mp (List.mem_of_find?_eq_some hfind)).1
                have hsame := MockChain.onChain_unique hother hentry hmatch.1
                rw [← hfound, hsame, Option.map_some]

/-- The deposit of the log is confirmed in the block of the log. -/
def Db.ConfirmedIn (db : Db) (entry : TransferLog) : Prop :=
  ∃ d, db.deposits.find? entry.identity = some d ∧ d.status = .confirmed ∧
    d.blockNumber = entry.blockNumber ∧ d.blockHash = entry.blockHash

namespace DepositWorld

/-! ## The workers know their assets -/

theorem step_assetsKnown {config : MockChain.Config} {settings : Settings} {w : DepositWorld}
    (h : w.db.AssetsKnown) (action : DepositAction) :
    (step config settings action w).db.AssetsKnown := by
  cases action with
  | chain chainStep => exact h
  | scan scope newId =>
      rcases scan_cases config settings scope newId w with
        ⟨hsame, _⟩ | ⟨plan, mid, _, hmid, hnext⟩
      · rw [hsame]
        exact h
      · rw [hnext]
        have hknown := hmid.assetsKnown h
        exact ⟨hknown.deposits, hknown.outgoing⟩
  | watch scope =>
      simp only [step]
      rcases watchDepositsOnce_cases (MockChain.adapter config) settings scope w.chain
        (fun _ => .fixed w.chain) w.db with hsame | ⟨head, _, _, hresult⟩
      · rw [hsame]
        exact h
      · rw [hresult]
        apply visitAll_preserves (I := Db.AssetsKnown) ?_ h
        intro id _ db hdb
        rcases reverify_cases (MockChain.adapter config) settings scope (.fixed w.chain) head id
          db with hraised | ⟨_, hgone⟩ | ⟨d, found, verdict, db', hd, _, hreverified, hreturned⟩
        · rwa [hraised]
        · rwa [hgone]
        · rw [hreturned]
          have hkey := Table.key_of_find? hd
          subst hkey
          exact hreverified.assetsKnown hd hdb

/-! ## The chain stands still -/

/-- The node answers, and the forks since the cursor was written are bounded. -/
structure Quiet (config : MockChain.Config) (settings : Settings) (w : DepositWorld) :
    Prop where
  coverage : Coverage config settings w.db w.seen w.chain
  storable : MockChain.Storable config w.chain
  up : MockChain.assertRpcUp w.chain = .ok ()
  assets : w.db.AssetsKnown
  bounded : ForkBounded settings w.db w.seen w.chain

section Quiet

variable {config : MockChain.Config} {settings : Settings} {w : DepositWorld}

/-- One run of the scanner takes the cursor on by a batch, up to the head. -/
theorem Quiet.scan (h : w.Quiet config settings) (hasset : config.asset = "USDT")
    (hbatch : 1 ≤ settings.scanBatchBlocks) (scope : Scope) (newId : TransferLog → Uuid) :
    (step config settings (.scan scope newId) w).Quiet config settings ∧
      min (headNumber w.chain) (position settings w.db w.chain + settings.scanBatchBlocks) ≤
        position settings (step config settings (.scan scope newId) w).db w.chain := by
  have hchain := h.coverage.chain_consistent
  have hcoverage := step_coverage w (.scan scope newId) h.coverage h.bounded
  have hknown : (step config settings (.scan scope newId) w).db.AssetsKnown :=
    step_assetsKnown h.assets _
  have hrun : (scanOnce (MockChain.adapter config) settings scope newId (.fixed w.chain)
      w.db).1 = .completed :=
    scanOnce_completes hchain h.storable hasset h.up h.assets scope newId
  rcases scan_cases config settings scope newId w with
    ⟨hsame, hend⟩ | ⟨plan, mid, hplan, hmid, hnext⟩
  · rw [hsame]
    refine ⟨h, ?_⟩
    have hnone : scanPlan (MockChain.adapter config) settings (.fixed w.chain) w.db =
        .ok none := by
      cases hend with
      | inl hraised =>
          rw [hrun] at hraised
          cases hraised
      | inr hnone => exact hnone
    obtain ⟨head, hhead, hshort⟩ := scanPlan_none hnone
    have hheadNumber : head = headNumber w.chain := MockChain.getBlockNumber_ok hhead
    rcases hshort with hzero | ⟨cursor, hcursor, hshort⟩
    · omega
    · have hposition := (scanCursor_up h.up).symm.trans hcursor
      rw [Except.ok.injEq] at hposition
      omega
  · rw [hnext] at hcoverage hknown ⊢
    obtain ⟨head, cursor, logs, hhead, _, hcursor, hto, _, _, _, htip⟩ := scanPlan_some hplan
    have hheadNumber : head = headNumber w.chain := MockChain.getBlockNumber_ok hhead
    have hposition := (scanCursor_up h.up).symm.trans hcursor
    rw [Except.ok.injEq] at hposition
    refine ⟨⟨hcoverage, h.storable, h.up, hknown, ?_⟩, ?_⟩
    · intro state _ number _
      rfl
    · have hat : (canonicalAt w.chain plan.toBlock).map MockChain.MockBlock.hash =
          plan.tipHash := (MockChain.getBlockHash_ok htip).symm
      have hnew : position settings (mid.moveCursor (plan.state settings)) w.chain =
          plan.toBlock := position_scanned hat
      rw [hnew]
      omega

theorem Quiet.scans (h : w.Quiet config settings) (hasset : config.asset = "USDT")
    (hbatch : 1 ≤ settings.scanBatchBlocks) (scans : List (Scope × (TransferLog → Uuid))) :
    (runSteps (step config settings) w (scans.map fun run => .scan run.1 run.2)).Quiet config
        settings ∧
      (runSteps (step config settings) w (scans.map fun run => .scan run.1 run.2)).chain =
        w.chain ∧
      min (headNumber w.chain) (scans.length * settings.scanBatchBlocks) ≤
        position settings
          (runSteps (step config settings) w (scans.map fun run => .scan run.1 run.2)).db
          w.chain := by
  suffices hlonger : ∀ reached, reached ≤ position settings w.db w.chain →
      (runSteps (step config settings) w (scans.map fun run => .scan run.1 run.2)).Quiet config
          settings ∧
        (runSteps (step config settings) w (scans.map fun run => .scan run.1 run.2)).chain =
          w.chain ∧
        min (headNumber w.chain) (reached + scans.length * settings.scanBatchBlocks) ≤
          position settings
            (runSteps (step config settings) w (scans.map fun run => .scan run.1 run.2)).db
            w.chain by
    simpa using hlonger 0 (Nat.zero_le _)
  induction scans generalizing w with
  | nil =>
      intro reached hreached
      refine ⟨h, rfl, ?_⟩
      simp only [List.map_nil, List.length_nil, Nat.zero_mul, runSteps_nil]
      omega
  | cons run rest ih =>
      intro reached hreached
      obtain ⟨hquiet, hprogress⟩ := h.scan hasset hbatch run.1 run.2
      have hchain : (step config settings (.scan run.1 run.2) w).chain = w.chain := rfl
      have hrest := ih hquiet
      rw [hchain] at hrest
      obtain ⟨hquiet', hchain', hposition⟩ := hrest _ hprogress
      refine ⟨hquiet', hchain', ?_⟩
      simp only [List.map_cons, runSteps_cons, List.length_cons, Nat.add_mul, Nat.one_mul]
      omega

/-- At the head, the cursor vouches for the whole chain. -/
theorem Quiet.recorded (h : w.Quiet config settings)
    (hreached : headNumber w.chain ≤ position settings w.db w.chain) {entry : TransferLog}
    (hentry : OnChain config w.chain entry)
    (hwatch : Watches config settings w.db entry.fromAddress entry.toAddress) :
    w.db.HasLive entry.identity := by
  have hheight : entry.blockNumber ≤ headNumber w.chain := by
    obtain ⟨tx, block, hemitted⟩ := hentry
    obtain rfl := hemitted.entry_eq
    exact MockChain.number_le_headNumber hemitted.block_mem hemitted.canonical
  obtain ⟨state, hstate, hbelow, hseen⟩ := h.coverage.below_cursor
    h.coverage.chain_consistent h.coverage.later h.bounded (scanCursor_up h.up) hentry
    (by omega)
  exact h.coverage.vouched state hstate entry hseen hentry hbelow hwatch

end Quiet

/-! ## The run of the watcher -/

/-- A deposit of the list whose log is deep enough is confirmed where the log is. -/
theorem Quiet.promoted {config : MockChain.Config} {settings : Settings} {w : DepositWorld}
    (h : w.Quiet config settings) (scope : Scope) {entry : TransferLog}
    (hentry : OnChain config w.chain entry) {d : Deposit}
    (hd : w.db.deposits.find? entry.identity = some d)
    (hwatched : d.watched settings (headNumber w.chain) = true)
    (hdeep : settings.confirmationsRequired ≤ headNumber w.chain + 1 - entry.blockNumber) :
    (step config settings (.watch scope) w).db.ConfirmedIn entry ∧
      (d.status = .detected → (step config settings (.watch scope) w).db.outbox.Has
        (confirmedEventId entry.identity entry.blockHash)) := by
  have hchain := h.coverage.chain_consistent
  have hshows := MockChain.shows_view config hchain h.up
  have hrun := watchDepositsOnce_completes hshows settings scope h.assets
  have hkey := Table.key_of_find? hd
  have hlist : entry.identity ∈ watchlist settings (headNumber w.chain) w.db :=
    mem_watchlist.mpr ⟨d, hd, hwatched⟩
  have hhead : (MockChain.adapter config).getBlockNumber w.chain =
      .ok (headNumber w.chain) := hshows.head
  have hpositive : headNumber w.chain ≠ 0 := by
    obtain ⟨tx, block, hemitted⟩ := hentry
    obtain rfl := hemitted.entry_eq
    have hgenesis := hchain.linked.height_positive block hemitted.block_mem hemitted.canonical
    have hle := MockChain.number_le_headNumber hemitted.block_mem hemitted.canonical
    unfold MockChain.genesisNumber at hgenesis
    omega
  simp only [step]
  unfold watchDepositsOnce at hrun ⊢
  simp only [hhead, hpositive, if_false] at hrun ⊢
  obtain ⟨found, before, after, hfound, hreverified, hbefore, hrow, houtbox⟩ :=
    reverifyAll_turn (watchlist_nodup settings (headNumber w.chain) w.db) hrun hlist hd
  have hplace := h.coverage.locate_found (Table.mem_of_find? hd) hfound hentry hkey.symm
  subst hplace
  cases hreverified with
  | confirmed blockNumber blockHash hripe payload hpayload outbox henqueued =>
      have hfind := hrow.trans (Table.find?_replace_of_key _ hkey hbefore)
      refine ⟨⟨_, hfind, rfl, rfl, rfl⟩, ?_⟩
      intro _
      apply houtbox
      have hhas := (enqueueEvent_has henqueued).1
      rw [confirmedEvent_eventId] at hhas
      rw [← hkey]
      exact hhas
  | moved blockNumber blockHash hripe =>
      have hfind := hrow.trans (Table.find?_replace_of_key _ hkey hbefore)
      have hconfirmed : d.status = .confirmed := by
        simp only [Deposit.watched, Bool.and_eq_true, decide_eq_true_eq] at hwatched
        cases hstatus : d.status with
        | detected => exact (hripe ⟨hstatus, hdeep⟩).elim
        | confirmed => rfl
        | reorged => exact (hwatched.1 hstatus).elim
      refine ⟨⟨_, hfind, hconfirmed, rfl, rfl⟩, ?_⟩
      intro hdetected
      rw [hconfirmed] at hdetected
      cases hdetected

theorem watch_keeps_cursor (config : MockChain.Config) (settings : Settings) (scope : Scope)
    (w : DepositWorld) :
    (step config settings (.watch scope) w).db.scanState = w.db.scanState ∧
      (step config settings (.watch scope) w).db.addresses = w.db.addresses := by
  simp only [step]
  rcases watchDepositsOnce_cases (MockChain.adapter config) settings scope w.chain
    (fun _ => .fixed w.chain) w.db with hsame | ⟨head, _, _, hresult⟩
  · rw [hsame]
    exact ⟨rfl, rfl⟩
  · rw [hresult]
    apply visitAll_preserves
      (I := fun db : Db => db.scanState = w.db.scanState ∧ db.addresses = w.db.addresses)
    · intro id _ db hdb
      rcases reverify_cases (MockChain.adapter config) settings scope (.fixed w.chain) head id
        db with hraised | ⟨_, hgone⟩ | ⟨d, found, verdict, db', _, _, hreverified, hreturned⟩
      · rwa [hraised]
      · rwa [hgone]
      · rw [hreturned]
        obtain ⟨_, _, _, hscanState, haddresses, _⟩ := hreverified.written
        exact ⟨hscanState.trans hdb.1, haddresses.trans hdb.2⟩
    · exact ⟨rfl, rfl⟩

theorem Quiet.watch {config : MockChain.Config} {settings : Settings} {w : DepositWorld}
    (h : w.Quiet config settings) (scope : Scope) :
    (step config settings (.watch scope) w).Quiet config settings where
  coverage := h.coverage.watched scope
  storable := h.storable
  up := h.up
  assets := step_assetsKnown h.assets (.watch scope)
  bounded := by
    intro state hstate
    rw [(watch_keeps_cursor config settings scope w).1] at hstate
    exact h.bounded state hstate

/-! ## Whole runs -/

/-- The run of the worker does not raise. -/
def Completes (config : MockChain.Config) (settings : Settings) (w : DepositWorld) :
    DepositAction → Prop
  | .chain _ => True
  | .scan scope newId =>
    (scanOnce (MockChain.adapter config) settings scope newId (.fixed w.chain) w.db).1 =
      .completed
  | .watch scope =>
    (watchDepositsOnce (MockChain.adapter config) settings scope w.chain
      (fun _ => .fixed w.chain) w.db).1 = .completed

theorem Quiet.completes {config : MockChain.Config} {settings : Settings} {w : DepositWorld}
    (h : w.Quiet config settings) (hasset : config.asset = "USDT") (action : DepositAction) :
    w.Completes config settings action := by
  have hchain := h.coverage.chain_consistent
  cases action with
  | chain chainStep => trivial
  | scan scope newId => exact scanOnce_completes hchain h.storable hasset h.up h.assets scope newId
  | watch scope =>
      have hshows := MockChain.shows_view config hchain h.up
      exact watchDepositsOnce_completes hshows settings scope h.assets

theorem Quiet.run_completes {config : MockChain.Config} {settings : Settings}
    {w : DepositWorld} (h : w.Quiet config settings) (hasset : config.asset = "USDT")
    (hbatch : 1 ≤ settings.scanBatchBlocks) (scans : List (Scope × (TransferLog → Uuid)))
    (scope : Scope) :
    AdmittedRun (step config settings) (Completes config settings) w
      ((scans.map fun run => .scan run.1 run.2) ++ [.watch scope]) := by
  induction scans generalizing w with
  | nil => exact ⟨h.completes hasset (.watch scope), trivial⟩
  | cons run rest ih =>
      have hscanned := (h.scan hasset hbatch run.1 run.2).1
      exact ⟨h.completes hasset (.scan run.1 run.2), ih hscanned⟩

/-- `scanned` is the world before the last run of the watcher. -/
structure CaughtUp (config : MockChain.Config) (settings : Settings)
    (scanned final : DepositWorld) : Prop where
  recorded : ∀ entry, OnChain config final.chain entry →
    Watches config settings final.db entry.fromAddress entry.toAddress →
      final.db.HasLive entry.identity
  confirmed : ∀ entry d, OnChain config final.chain entry →
    scanned.db.deposits.find? entry.identity = some d →
    d.watched settings (headNumber final.chain) = true →
    settings.confirmationsRequired ≤ headNumber final.chain + 1 - entry.blockNumber →
      final.db.ConfirmedIn entry ∧
        (d.status = .detected →
          final.db.outbox.Has (confirmedEventId entry.identity entry.blockHash))

theorem Quiet.caughtUp {config : MockChain.Config} {settings : Settings} {w : DepositWorld}
    (h : w.Quiet config settings)
    (hreached : headNumber w.chain ≤ position settings w.db w.chain) (scope : Scope) :
    CaughtUp config settings w (step config settings (.watch scope) w) where
  recorded := by
    intro entry hentry hwatch
    apply (h.watch scope).recorded ?_ hentry hwatch
    unfold position
    rw [(watch_keeps_cursor config settings scope w).1]
    exact hreached
  confirmed := fun _ _ hentry hd hwatched hdeep => h.promoted scope hentry hd hwatched hdeep

theorem runs_storable {config : MockChain.Config} {settings : Settings} {init : DepositWorld}
    (hinit : MockChain.Reachable config init.chain) (actions : List DepositAction) :
    MockChain.Storable config (runSteps (step config settings) init actions).chain := by
  apply MockChain.Reachable.storable
  apply runSteps_preserves (I := fun w : DepositWorld => MockChain.Reachable config w.chain)
  · intro w action hw
    cases action with
    | chain chainStep =>
        obtain ⟨steps, hsteps⟩ := hw
        refine ⟨steps ++ [chainStep], ?_⟩
        simp only [step]
        rw [runSteps_append, hsteps]
        rfl
    | scan scope newId => exact hw
    | watch scope => exact hw
  · exact hinit

/-- Whatever happened before: while the chain stands still and the node answers, no run
raises, enough runs of the scanner record every deposit, and one run of the watcher
confirms those which are deep enough. -/
theorem quiet_chains_are_caught_up {config : MockChain.Config} {settings : Settings}
    (hasset : config.asset = "USDT") (hbatch : 1 ≤ settings.scanBatchBlocks)
    {init : DepositWorld} (hinit : init.Fresh config) (hassets : init.db.AssetsKnown)
    {actions : List DepositAction}
    (hadmitted : AdmittedRun (step config settings) (Admitted settings) init actions)
    (hup : MockChain.assertRpcUp (runSteps (step config settings) init actions).chain = .ok ())
    (hbounded : ForkBounded settings (runSteps (step config settings) init actions).db
      (runSteps (step config settings) init actions).seen
      (runSteps (step config settings) init actions).chain)
    {scans : List (Scope × (TransferLog → Uuid))}
    (hscans : headNumber (runSteps (step config settings) init actions).chain ≤
      scans.length * settings.scanBatchBlocks) (scope : Scope) :
    AdmittedRun (step config settings) (Completes config settings)
        (runSteps (step config settings) init actions)
        ((scans.map fun run => .scan run.1 run.2) ++ [.watch scope]) ∧
      CaughtUp config settings
        (runSteps (step config settings) init
          (actions ++ scans.map fun run => .scan run.1 run.2))
        (runSteps (step config settings) init
          ((actions ++ scans.map fun run => .scan run.1 run.2) ++ [.watch scope])) := by
  have hcoverage := hadmitted.invariant
    (I := fun w : DepositWorld => Coverage config settings w.db w.seen w.chain)
    step_coverage hinit.coverage
  have hknown : (runSteps (step config settings) init actions).db.AssetsKnown :=
    runSteps_preserves (I := fun w : DepositWorld => w.db.AssetsKnown)
      (fun w action hw => step_assetsKnown hw action) hassets actions
  have hquiet : (runSteps (step config settings) init actions).Quiet config settings :=
    ⟨hcoverage, runs_storable hinit.reachable actions, hup, hknown, hbounded⟩
  refine ⟨hquiet.run_completes hasset hbatch scans scope, ?_⟩
  rw [runSteps_append, runSteps_append, runSteps_append]
  generalize runSteps (step config settings) init actions = w at hquiet hscans ⊢
  obtain ⟨hscanned, hchain, hposition⟩ := hquiet.scans hasset hbatch scans
  rw [runSteps_cons, runSteps_nil]
  apply hscanned.caughtUp
  rw [hchain]
  omega

/-- The deposit is recorded, its blocks are orphaned and rebuilt, and the watcher gave it
up between. -/
def givenUpRun : List DepositAction :=
  [.scan someScope fun _ => someUuid 100, .chain (.orphan 3 []), .watch someScope,
    .chain (.mineBlock (someUuid 10)), .chain (.mineBlock (someUuid 11)),
    .chain (.mineBlock (someUuid 12))]

def scannedAgain : List (Scope × (TransferLog → Uuid)) := [(someScope, fun _ => someUuid 101)]

def caughtUpRun : List DepositAction :=
  givenUpRun ++ scannedAgain.map fun run => .scan run.1 run.2

def statuses (actions : List DepositAction) : List DepositStatus :=
  (runSteps (step .bsc .standard) freshWorld actions).db.deposits.rows.map (·.status)

theorem givenUpRun_facts :
    AdmittedRun (step .bsc .standard) (Admitted .standard) freshWorld givenUpRun ∧
      MockChain.assertRpcUp (runSteps (step .bsc .standard) freshWorld givenUpRun).chain =
        .ok () ∧
      ForkBounded .standard (runSteps (step .bsc .standard) freshWorld givenUpRun).db
        (runSteps (step .bsc .standard) freshWorld givenUpRun).seen
        (runSteps (step .bsc .standard) freshWorld givenUpRun).chain ∧
      headNumber (runSteps (step .bsc .standard) freshWorld givenUpRun).chain ≤
        scannedAgain.length * Settings.standard.scanBatchBlocks ∧
      statuses givenUpRun = [.reorged] ∧
      statuses (caughtUpRun ++ [.watch someScope]) = [.confirmed] := by
  decide +kernel

theorem given_up_deposit_is_caught_up :
    statuses givenUpRun = [.reorged] ∧
      statuses (caughtUpRun ++ [.watch someScope]) = [.confirmed] ∧
      CaughtUp .bsc .standard (runSteps (step .bsc .standard) freshWorld caughtUpRun)
        (runSteps (step .bsc .standard) freshWorld (caughtUpRun ++ [.watch someScope])) := by
  obtain ⟨hadmitted, hup, hbounded, hscans, hreorged, hconfirmed⟩ := givenUpRun_facts
  have hassets : freshWorld.db.AssetsKnown := by
    refine ⟨?_, ?_⟩
    · intro d hd
      cases hd
    · intro record hrecord
      cases hrecord
  have hcaught := quiet_chains_are_caught_up rfl (by decide) freshWorld_fresh hassets
    hadmitted hup hbounded hscans someScope
  exact ⟨hreorged, hconfirmed, hcaught.2⟩

end DepositWorld
end Blockchain
end CryptoWallet
