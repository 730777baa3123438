import CryptoWallet.DepositConfirmation
import CryptoWallet.ScanCoverage

/-!
# The scanner misses nothing across bounded reorgs

The chain moves between the runs of the workers only, and no fork reaches
deeper below the cursor than the margin by which the scanner rewinds.
-/

namespace CryptoWallet.Blockchain

open MockChain (ChainStep Consistent Later OnChain canonicalAt canonicalAt_iff
  getReceipt headNumber logsUpTo mem_logsUpTo)

/-! ## A run of the watcher -/

section Watcher

variable {config : MockChain.Config} {settings : Settings} {db : Db}
  {seen chain : MockChain.State}

/-- The watcher does not lose a log which is on the chain. -/
theorem Coverage.locate_none (h : Coverage config settings db seen chain) {d : Deposit}
    (hd : d ∈ db.deposits.rows)
    (hgone : locate (MockChain.adapter config) (.fixed chain) d = .ok none)
    {entry : TransferLog} (hentry : OnChain config chain entry) :
    entry.identity ≠ d.identity := by
  intro hid
  simp only [TransferLog.identity, Deposit.identity, Prod.mk.injEq] at hid
  obtain ⟨_, hhash, hindex⟩ := hid
  unfold locate at hgone
  simp only [LookupCalls.fixed, ← hhash] at hgone
  cases hreceipt : (MockChain.adapter config).getReceipt chain entry.txHash with
  | error e => simp [hreceipt, bind, Except.bind] at hgone
  | ok receipt =>
      have hfound := MockChain.getReceipt_onChain h.chain_consistent hentry hreceipt
      subst hfound
      simp only [hreceipt, bind, Except.bind] at hgone
      split at hgone
      next => cases hgone
      next =>
        cases hentries : (MockChain.adapter config).getTransferLogs chain
            entry.blockNumber entry.blockNumber [d.toAddress.val] with
        | error e => simp [hentries] at hgone
        | ok entries =>
            simp only [hentries, pure, Except.pure, Except.ok.injEq,
              Option.map_eq_none_iff] at hgone
            obtain ⟨_, tx, htx, htxHash, hto, _⟩ := h.traced d hd
            obtain ⟨tx', block, hemitted⟩ := id hentry
            have hsame : tx' = tx := by
              apply chain.transactions.eq_of_mem_of_key_eq hemitted.tx_mem htx
              rw [htxHash, ← hhash, hemitted.entry_eq]
              rfl
            have haddress : entry.toAddress = d.toAddress.val := by
              rw [← hto, ← hsame, hemitted.entry_eq]
              rfl
            have hmem : entry ∈ entries :=
              (MockChain.mem_getTransferLogs h.chain_consistent hentries).mpr
                ⟨hentry, ⟨le_rfl, le_rfl⟩, Or.inr (by simp [haddress])⟩
            have hnot := List.find?_eq_none.mp hgone entry hmem
            simp [hindex] at hnot

theorem Coverage.reverify (h : Coverage config settings db seen chain) (scope : Scope)
    (head : Nat) (id : DepositId) :
    Coverage config settings
      (reverify (MockChain.adapter config) settings scope (.fixed chain) head id db).2
      seen chain := by
  rcases reverify_cases (MockChain.adapter config) settings scope (.fixed chain) head id db
    with hraised | ⟨_, hgone⟩ | ⟨d, found, verdict, db', hd, hfound, hreverified, hreturned⟩
  · rwa [hraised]
  · rwa [hgone]
  · rw [hreturned]
    have hkey := Table.key_of_find? hd
    subst hkey
    apply h.reverified hd hreverified
    intro hnone _ _ entry _ hentry _
    subst hnone
    exact h.locate_none (Table.mem_of_find? hd) hfound hentry

theorem Coverage.watched (h : Coverage config settings db seen chain) (scope : Scope) :
    Coverage config settings
      (watchDepositsOnce (MockChain.adapter config) settings scope chain
        (fun _ => .fixed chain) db).2 seen chain := by
  unfold watchDepositsOnce
  split
  next => exact h
  next => exact h
  next head _ =>
    split
    next => exact h
    next =>
      apply visitAll_preserves (I := fun db => Coverage config settings db seen chain)
      · exact fun id _ db' hdb' => hdb'.reverify scope head id
      · exact h

end Watcher

/-! ## Runs of both workers while the chain stands still -/

theorem ScanCalls.fixed_inOrder {seen chain : MockChain.State} (hchain : Consistent chain)
    (hlater : Later seen chain) : (ScanCalls.fixed chain).InOrder seen chain :=
  ⟨hchain, hchain, hchain, hchain, hlater, .refl chain, .refl chain, .refl chain,
    .refl chain⟩

theorem ScanCalls.fixed_headKept {chain : MockChain.State} (hchain : Consistent chain) :
    (ScanCalls.fixed chain).HeadKept := by
  intro b hb
  have htop := MockChain.head?_top hb
  exact (canonicalAt_iff hchain).mpr ⟨htop.mem, htop.canonical, rfl⟩

/-- The run wrote the cursor. -/
def cursorWritten {σ : Type} (adapter : ChainAdapter σ) (settings : Settings)
    (scope : Scope) (newId : TransferLog → Uuid) (calls : ScanCalls σ) (db : Db) : Bool :=
  match scanPlan adapter settings calls db with
  | .ok (some _) => (scanOnce adapter settings scope newId calls db).1 = .completed
  | _ => false

theorem cursorWritten_cases {σ : Type} {adapter : ChainAdapter σ} {settings : Settings}
    {scope : Scope} {newId : TransferLog → Uuid} {calls : ScanCalls σ} {db : Db}
    (h : cursorWritten adapter settings scope newId calls db = true) :
    ∃ plan mid, scanPlan adapter settings calls db = .ok (some plan) ∧
      UpsertedAll scope newId plan.logs db mid ∧
      scanOnce adapter settings scope newId calls db =
        (.completed, mid.moveCursor (plan.state settings)) := by
  unfold cursorWritten at h
  rcases scanOnce_cases adapter settings scope newId calls db with
    ⟨_, hraised | hnone⟩ | hcommitted
  · split at h
    next => simp [hraised] at h
    next => cases h
  · simp [hnone] at h
  · exact hcommitted

/-- The chain, the database, and the chain the cursor was last written for. -/
structure DepositWorld where
  chain : MockChain.State
  db : Db
  seen : MockChain.State

inductive DepositAction where
  | chain (step : ChainStep)
  | scan (scope : Scope) (newId : TransferLog → Uuid)
  | watch (scope : Scope)

namespace DepositWorld

def step (config : MockChain.Config) (settings : Settings) (action : DepositAction)
    (w : DepositWorld) : DepositWorld :=
  match action with
  | .chain chainStep => { w with chain := MockChain.chainStep config chainStep w.chain }
  | .scan scope newId =>
    let adapter := MockChain.adapter config
    { w with
      db := (scanOnce adapter settings scope newId (.fixed w.chain) w.db).2
      seen :=
        if cursorWritten adapter settings scope newId (.fixed w.chain) w.db then w.chain
        else w.seen }
  | .watch scope =>
    { w with
      db := (watchDepositsOnce (MockChain.adapter config) settings scope w.chain
        (fun _ => .fixed w.chain) w.db).2 }

/-- The node has run for a while, the workers have not. -/
structure Fresh (config : MockChain.Config) (w : DepositWorld) : Prop where
  reachable : MockChain.Reachable config w.chain
  seen : w.seen = w.chain
  deposits : w.db.deposits = .empty
  scanState : w.db.scanState = .empty

/-- When the scanner runs, the forks since the cursor was written are bounded. -/
def Admitted (settings : Settings) (w : DepositWorld) : DepositAction → Prop
  | .scan _ _ => ForkBounded settings w.db w.seen w.chain
  | _ => True

instance Admitted.decide (settings : Settings) (w : DepositWorld) :
    ∀ action, Decidable (Admitted settings w action)
  | .scan _ _ => inferInstanceAs (Decidable (ForkBounded settings w.db w.seen w.chain))
  | .chain _ => .isTrue trivial
  | .watch _ => .isTrue trivial

/-- Every log up to the cursor which concerns custody has one row, which is live. -/
def Complete (config : MockChain.Config) (settings : Settings) (w : DepositWorld) : Prop :=
  ∀ state, w.db.scanState.find? settings.network = some state →
    ∀ entry ∈ logsUpTo config w.chain state.lastScannedBlock,
      Watches config settings w.db entry.fromAddress entry.toAddress →
      ∃ d, d.status ≠ .reorged ∧
        ∀ d', d' ∈ w.db.deposits.rows ∧ d'.identity = entry.identity ↔ d' = d

theorem Fresh.coverage {config : MockChain.Config} {settings : Settings}
    {w : DepositWorld} (h : w.Fresh config) :
    Coverage config settings w.db w.seen w.chain := by
  have hchain := h.reachable.consistent
  rw [h.seen]
  refine ⟨hchain, hchain, .refl w.chain, ?_, ?_, ?_⟩
  · simp [h.scanState]
  · simp [h.scanState]
  · simp [h.deposits]

/-- A scanner run commits what it planned, or changes nothing. -/
theorem scan_cases (config : MockChain.Config) (settings : Settings) (scope : Scope)
    (newId : TransferLog → Uuid) (w : DepositWorld) :
    (step config settings (.scan scope newId) w = w ∧
      ((scanOnce (MockChain.adapter config) settings scope newId (.fixed w.chain)
          w.db).1 = .raised ∨
        scanPlan (MockChain.adapter config) settings (.fixed w.chain) w.db = .ok none)) ∨
      ∃ plan mid,
        scanPlan (MockChain.adapter config) settings (.fixed w.chain) w.db =
          .ok (some plan) ∧
        UpsertedAll scope newId plan.logs w.db mid ∧
        step config settings (.scan scope newId) w =
          ⟨w.chain, mid.moveCursor (plan.state settings), w.chain⟩ := by
  simp only [step]
  cases hwritten : cursorWritten (MockChain.adapter config) settings scope newId
      (.fixed w.chain) w.db with
  | true =>
      obtain ⟨plan, mid, hplan, hmid, hresult⟩ := cursorWritten_cases hwritten
      right
      refine ⟨plan, mid, hplan, hmid, ?_⟩
      rw [hresult, if_pos rfl]
  | false =>
      left
      rcases scanOnce_cases (MockChain.adapter config) settings scope newId
          (.fixed w.chain) w.db with ⟨hsame, hend⟩ | ⟨plan, mid, hplan, hmid, hresult⟩
      · rw [hsame]
        exact ⟨rfl, hend⟩
      · simp [cursorWritten, hplan, hresult] at hwritten

/-- One step keeps the claim of the cursor. -/
theorem step_coverage {config : MockChain.Config} {settings : Settings} (w : DepositWorld)
    (action : DepositAction) (h : Coverage config settings w.db w.seen w.chain)
    (hadmitted : w.Admitted settings action) :
    Coverage config settings (step config settings action w).db
      (step config settings action w).seen (step config settings action w).chain := by
  cases action with
  | chain chainStep => exact h.chainStep chainStep
  | watch scope => exact h.watched scope
  | scan scope newId =>
      rcases scan_cases config settings scope newId w with
        ⟨hsame, _⟩ | ⟨plan, mid, hplan, hmid, hnext⟩
      · rw [hsame]
        exact h
      · rw [hnext]
        exact h.scanned (ScanCalls.fixed_inOrder h.chain_consistent h.later)
          (ScanCalls.fixed_headKept h.chain_consistent) hadmitted hplan hmid

/-- What the cursor vouches for is everything up to it. -/
theorem complete_of_seen {config : MockChain.Config} {settings : Settings}
    {w : DepositWorld} (h : Coverage config settings w.db w.seen w.chain)
    (hseen : ∀ state, w.db.scanState.find? settings.network = some state →
      ∀ entry, OnChain config w.chain entry → entry.blockNumber ≤ state.lastScannedBlock →
        OnChain config w.seen entry) :
    w.Complete config settings := by
  intro state hstate entry hentry hwatch
  obtain ⟨hon, hheight⟩ := (mem_logsUpTo h.chain_consistent).mp hentry
  obtain ⟨d, hd, hlive⟩ := h.vouched state hstate entry
    (hseen state hstate entry hon hheight) hon hheight hwatch
  refine ⟨d, hlive, fun d' => ?_⟩
  constructor
  · rintro ⟨hmem, hid⟩
    have hfind := w.db.deposits.find?_of_mem hmem
    rw [hid, hd, Option.some.injEq] at hfind
    exact hfind.symm
  · rintro rfl
    exact ⟨Table.mem_of_find? hd, Table.key_of_find? hd⟩

/-- A scanner run which is not cut short leaves no gap up to its cursor. -/
theorem scan_complete {config : MockChain.Config} {settings : Settings}
    (hbatch : 1 ≤ settings.scanBatchBlocks) {w : DepositWorld}
    (h : Coverage config settings w.db w.seen w.chain) (scope : Scope)
    (newId : TransferLog → Uuid)
    (hbounded : ForkBounded settings w.db w.seen w.chain)
    (hrun : (scanOnce (MockChain.adapter config) settings scope newId (.fixed w.chain)
      w.db).1 = .completed) :
    (step config settings (.scan scope newId) w).Complete config settings := by
  have hcoverage := step_coverage w (.scan scope newId) h hbounded
  rcases scan_cases config settings scope newId w with
    ⟨hsame, hend⟩ | ⟨plan, mid, hplan, hmid, hnext⟩
  · rw [hsame]
    apply complete_of_seen h
    intro state hstate entry hentry hheight
    have hnone : scanPlan (MockChain.adapter config) settings (.fixed w.chain) w.db =
        .ok none := by
      rcases hend with hraised | hnone
      · rw [hrun] at hraised
        cases hraised
      · exact hnone
    -- the head is not above the cursor, so the whole chain was scanned before
    obtain ⟨head, hhead, hshort⟩ := scanPlan_none hnone
    have hheadNumber := MockChain.getBlockNumber_ok hhead
    have hbelow : ∃ block ∈ w.chain.blocks.rows, block.isCanonical = true ∧
        block.number = entry.blockNumber := by
      obtain ⟨tx, block, hemitted⟩ := hentry
      obtain rfl := hemitted.entry_eq
      exact ⟨block, hemitted.block_mem, hemitted.canonical, rfl⟩
    obtain ⟨block, hblock, hcanonical, hnumber⟩ := hbelow
    have hpositive := h.chain_consistent.linked.height_positive block hblock hcanonical
    have hle : block.number ≤ headNumber w.chain :=
      MockChain.number_le_headNumber hblock hcanonical
    change head = headNumber w.chain at hheadNumber
    unfold MockChain.genesisNumber at hpositive
    rcases hshort with hzero | ⟨cursor, hcursor, hcursorHead | hnobatch⟩
    · omega
    · obtain ⟨_, _, _, hold⟩ := h.below_cursor h.chain_consistent h.later hbounded hcursor
        hentry (by omega)
      exact hold
    · omega
  · rw [hnext] at hcoverage ⊢
    apply complete_of_seen hcoverage
    exact fun _ _ _ hentry _ => hentry

/-- In every run with bounded forks, every scanner run which is not cut short leaves
one live row for every log up to the cursor. -/
theorem scanner_misses_nothing {config : MockChain.Config} {settings : Settings}
    (hbatch : 1 ≤ settings.scanBatchBlocks) {init : DepositWorld}
    (hinit : init.Fresh config) {actions : List DepositAction} {scope : Scope}
    {newId : TransferLog → Uuid}
    (hbounded : AdmittedRun (step config settings) (Admitted settings) init
      (actions ++ [.scan scope newId]))
    (hrun : (scanOnce (MockChain.adapter config) settings scope newId
      (.fixed (runSteps (step config settings) init actions).chain)
      (runSteps (step config settings) init actions).db).1 = .completed) :
    (runSteps (step config settings) init
      (actions ++ [.scan scope newId])).Complete config settings := by
  obtain ⟨hbefore, hlast, _⟩ := admittedRun_append.mp hbounded
  have hcoverage := hbefore.invariant
    (I := fun w : DepositWorld => Coverage config settings w.db w.seen w.chain)
    step_coverage hinit.coverage
  rw [runSteps_append]
  exact scan_complete hbatch hcoverage scope newId hlast hrun

theorem fresh_scan :
    (∃ entry ∈ logsUpTo .bsc (depositChain 2) 4,
      Watches .bsc .standard (scannedDb 2) entry.fromAddress entry.toAddress) ∧
      ((scannedDb 2).scanState.find? "BSC").map ScanState.lastScannedBlock = some 4 ∧
      (scanOnce (MockChain.adapter .bsc) .standard someScope (fun _ => someUuid 100)
        (.fixed (depositChain 2)) .custody).1 = .completed := by
  decide +kernel

def freshWorld : DepositWorld := ⟨depositChain 2, .custody, depositChain 2⟩

theorem freshWorld_fresh : freshWorld.Fresh .bsc := ⟨depositChain_reachable 2, rfl, rfl, rfl⟩

/-- The first run of the scanner finds the deposit. -/
theorem first_scan_finds_the_deposit :
    ∃ entry ∈ logsUpTo .bsc (depositChain 2) 4, ∃ d, d.status ≠ .reorged ∧
      ∀ d', d' ∈ (scannedDb 2).deposits.rows ∧ d'.identity = entry.identity ↔ d' = d := by
  obtain ⟨⟨entry, hentry, hwatch⟩, hcursor, hrun⟩ := fresh_scan
  obtain ⟨state, hstate, hblock⟩ := Option.map_eq_some_iff.mp hcursor
  have hbounded : AdmittedRun (step .bsc .standard) (Admitted .standard) freshWorld
      ([] ++ [.scan someScope fun _ => someUuid 100]) := by
    refine ⟨?_, trivial⟩
    intro state hstate
    cases hstate
  have hcomplete := scanner_misses_nothing (by decide) freshWorld_fresh hbounded hrun
  have hdb : (runSteps (step .bsc .standard) freshWorld
      ([] ++ [.scan someScope fun _ => someUuid 100])).db = scannedDb 2 := by
    unfold scannedDb
    rfl
  unfold Complete at hcomplete
  rw [hdb] at hcomplete
  refine ⟨entry, hentry, hcomplete state hstate entry ?_ hwatch⟩
  rw [hblock]
  exact hentry

end DepositWorld
end CryptoWallet.Blockchain
