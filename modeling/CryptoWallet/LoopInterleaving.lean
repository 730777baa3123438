import CryptoWallet.ScannerCompleteness

/-!
# The scanner and the watcher side by side

Both loops run in one process, and at every call and every transaction of one the
other may go on and the chain may move.  A deposit which the watcher found to be
gone is lost if it is on the chain again, and passed by the scanner, when the
watcher writes it.
-/

namespace CryptoWallet.Blockchain

open MockChain (ChainStep Consistent Later OnChain Reachable canonicalAt
  canonicalAt_iff chainStep chainStep_consistent logsUpTo mem_logsUpTo)

/-! ## The two loops -/

/-- What the scanner does next in a run. -/
inductive ScannerNext where
  | cursor
  | logs
  | tip
  | commit
  deriving DecidableEq

/-- A call which is still to come is taken to meet the chain of the last one. -/
inductive ScannerPhase where
  | idle
  | running (calls : ScanCalls MockChain.State) (next : ScannerNext)

inductive WatcherPhase where
  | idle
  | started (headCall : MockChain.State)
  | looping (head : Nat) (ids : List DepositId)
  | reading (head : Nat) (d : Deposit) (rest : List DepositId)
  | asked (head : Nat) (d : Deposit) (receiptCall : MockChain.State)
      (rest : List DepositId)
  | judged (head : Nat) (id : DepositId) (found : Option (Nat × ChainHash))
      (rest : List DepositId)

structure LoopWorld where
  chain : MockChain.State
  db : Db
  /-- The chain the cursor was last written for. -/
  seen : MockChain.State
  scanner : ScannerPhase
  watcher : WatcherPhase

inductive LoopAction where
  | chain (step : ChainStep)
  | scanner (scope : Scope) (newId : TransferLog → Uuid)
  | watcher (scope : Scope)

namespace LoopWorld

def scannerStep (config : MockChain.Config) (settings : Settings) (scope : Scope)
    (newId : TransferLog → Uuid) (w : LoopWorld) : LoopWorld :=
  match w.scanner with
  | .idle => { w with scanner := .running (.fixed w.chain) .cursor }
  | .running calls .cursor =>
    { w with scanner := .running ⟨calls.head, w.chain, w.chain, w.chain⟩ .logs }
  | .running calls .logs =>
    { w with scanner := .running ⟨calls.head, calls.cursor, w.chain, w.chain⟩ .tip }
  | .running calls .tip =>
    { w with scanner := .running ⟨calls.head, calls.cursor, calls.logs, w.chain⟩ .commit }
  | .running calls .commit =>
    let adapter := MockChain.adapter config
    { w with
      db := (scanOnce adapter settings scope newId calls w.db).2
      seen :=
        if cursorWritten adapter settings scope newId calls w.db then calls.tip else w.seen
      scanner := .idle }

/-- An exception ends the run of the watcher. -/
def watcherStep (config : MockChain.Config) (settings : Settings) (scope : Scope)
    (w : LoopWorld) : LoopWorld :=
  match w.watcher with
  | .idle => { w with watcher := .started w.chain }
  | .started headCall =>
    match (MockChain.adapter config).getBlockNumber headCall with
    | .error _ => { w with watcher := .idle }
    | .ok head =>
      if head = 0 then { w with watcher := .idle }
      else { w with watcher := .looping head (watchlist settings head w.db) }
  | .looping _ [] => { w with watcher := .idle }
  | .looping head (id :: rest) =>
    match w.db.deposits.find? id with
    | none => { w with watcher := .looping head rest }
    | some d => { w with watcher := .reading head d rest }
  | .reading head d rest => { w with watcher := .asked head d w.chain rest }
  | .asked head d receiptCall rest =>
    match locate (MockChain.adapter config) ⟨receiptCall, w.chain⟩ d with
    | .error _ => { w with watcher := .idle }
    | .ok found => { w with watcher := .judged head d.identity found rest }
  | .judged head id found rest =>
    match Tx.commit (reverifyTx settings scope head found id) w.db with
    | (.error _, db) => { w with db, watcher := .idle }
    | (.ok _, db) => { w with db, watcher := .looping head rest }

def step (config : MockChain.Config) (settings : Settings) (action : LoopAction)
    (w : LoopWorld) : LoopWorld :=
  match action with
  | .chain chainStep => { w with chain := MockChain.chainStep config chainStep w.chain }
  | .scanner scope newId => scannerStep config settings scope newId w
  | .watcher scope => watcherStep config settings scope w

structure Fresh (config : MockChain.Config) (w : LoopWorld) : Prop where
  reachable : Reachable config w.chain
  seen : w.seen = w.chain
  deposits : w.db.deposits = .empty
  scanState : w.db.scanState = .empty
  scanner : w.scanner = .idle
  watcher : w.watcher = .idle

/-! ## When nothing is lost -/

/-- Between runs, and with a cursor on the chain, no deposit which is on the chain
close below the cursor is reorged. -/
def NothingLost (config : MockChain.Config) (settings : Settings) (w : LoopWorld) : Prop :=
  w.scanner = .idle → w.watcher = .idle →
    ∀ state hash, w.db.scanState.find? settings.network = some state →
      state.lastScannedHash = some hash →
      (canonicalAt w.chain state.lastScannedBlock).map MockChain.MockBlock.hash =
        some hash →
      ∀ d ∈ w.db.deposits.rows, ∀ entry ∈ logsUpTo config w.chain state.lastScannedBlock,
        state.lastScannedBlock ≤ entry.blockNumber + settings.reorgSafetyBlocks →
        d.txHash = entry.txHash → d.logIndex = entry.logIndex → d.status ≠ .reorged

/-- The log is on the chain, in a block the cursor vouches for. -/
def PassedBy (config : MockChain.Config) (settings : Settings) (w : LoopWorld)
    (id : DepositId) : Prop :=
  ∃ state entry, w.db.scanState.find? settings.network = some state ∧
    OnChain config w.seen entry ∧ OnChain config w.chain entry ∧
    entry.blockNumber ≤ state.lastScannedBlock ∧ entry.identity = id

/-- A run which writes the cursor meets no fork below its head, and no fork since the
cursor was last written which is deeper than the margin; and the watcher does not
give up a deposit which the scanner has passed by. -/
def Admitted (config : MockChain.Config) (settings : Settings) (w : LoopWorld) :
    LoopAction → Prop
  | .chain _ => True
  | .scanner scope newId =>
    ∀ calls, w.scanner = .running calls .commit →
      cursorWritten (MockChain.adapter config) settings scope newId calls w.db = true →
      calls.HeadKept ∧ ForkBounded settings w.db w.seen calls.cursor
  | .watcher _ =>
    ∀ head id rest, w.watcher = .judged head id none rest → ¬w.PassedBy config settings id

/-- The calls a run has made came one after another. -/
def ScannerInOrder (w : LoopWorld) : Prop :=
  ∀ calls next, w.scanner = .running calls next → calls.InOrder w.seen w.chain

structure Inv (config : MockChain.Config) (settings : Settings) (w : LoopWorld) : Prop where
  coverage : Coverage config settings w.db w.seen w.chain
  inOrder : w.ScannerInOrder

section

variable {config : MockChain.Config} {settings : Settings}

theorem Fresh.inv {w : LoopWorld} (h : w.Fresh config) : w.Inv config settings := by
  have hworld : DepositWorld.Fresh config ⟨w.chain, w.db, w.seen⟩ :=
    ⟨h.reachable, h.seen, h.deposits, h.scanState⟩
  refine ⟨hworld.coverage, ?_⟩
  intro calls next hrunning
  rw [h.scanner] at hrunning
  cases hrunning

theorem chainStep_inv (chainStep : ChainStep) {w : LoopWorld} (h : w.Inv config settings) :
    (step config settings (.chain chainStep) w).Inv config settings := by
  have hcoverage := h.coverage.chainStep chainStep
  refine ⟨hcoverage, ?_⟩
  intro calls next hrunning
  have horder := h.inOrder calls next hrunning
  have hnext : Later w.chain (MockChain.chainStep config chainStep w.chain) :=
    (Later.refl w.chain).step h.coverage.chain_consistent chainStep
  exact { horder with tip_chain := horder.tip_chain.trans hnext }

theorem scannerStep_inv (scope : Scope) (newId : TransferLog → Uuid) {w : LoopWorld}
    (h : w.Inv config settings)
    (hadmitted : w.Admitted config settings (.scanner scope newId)) :
    (scannerStep config settings scope newId w).Inv config settings := by
  have hchain := h.coverage.chain_consistent
  unfold scannerStep
  split
  next =>
    refine ⟨h.coverage, ?_⟩
    intro calls next hrunning
    cases hrunning
    exact ScanCalls.fixed_inOrder hchain h.coverage.later
  next calls hrunning =>
    have horder := h.inOrder calls .cursor hrunning
    have hlater := (horder.head_cursor.trans horder.cursor_logs).trans
      (horder.logs_tip.trans horder.tip_chain)
    refine ⟨h.coverage, ?_⟩
    intro calls' next hrunning'
    cases hrunning'
    exact ⟨horder.head_consistent, hchain, hchain, hchain, horder.seen_head, hlater,
      .refl w.chain, .refl w.chain, .refl w.chain⟩
  next calls hrunning =>
    have horder := h.inOrder calls .logs hrunning
    have hlater := horder.cursor_logs.trans (horder.logs_tip.trans horder.tip_chain)
    refine ⟨h.coverage, ?_⟩
    intro calls' next hrunning'
    cases hrunning'
    exact ⟨horder.head_consistent, horder.cursor_consistent, hchain, hchain,
      horder.seen_head, horder.head_cursor, hlater, .refl w.chain, .refl w.chain⟩
  next calls hrunning =>
    have horder := h.inOrder calls .tip hrunning
    have hlater := horder.logs_tip.trans horder.tip_chain
    refine ⟨h.coverage, ?_⟩
    intro calls' next hrunning'
    cases hrunning'
    exact ⟨horder.head_consistent, horder.cursor_consistent, horder.logs_consistent,
      hchain, horder.seen_head, horder.head_cursor, horder.cursor_logs, hlater,
      .refl w.chain⟩
  next calls hrunning =>
    refine ⟨?_, fun calls' next hrunning' => by cases hrunning'⟩
    dsimp only
    cases hwritten : cursorWritten (MockChain.adapter config) settings scope newId calls
        w.db with
    | true =>
        obtain ⟨hkept, hbounded⟩ := hadmitted calls hrunning hwritten
        obtain ⟨plan, mid, hplan, hmid, hresult⟩ := cursorWritten_cases hwritten
        rw [hresult, if_pos rfl]
        exact h.coverage.scanned (h.inOrder calls .commit hrunning) hkept hbounded hplan hmid
    | false =>
        rcases scanOnce_cases (MockChain.adapter config) settings scope newId calls w.db with
          ⟨hsame, _⟩ | ⟨plan, mid, hplan, hmid, hresult⟩
        · rw [hsame]
          exact h.coverage
        · simp [cursorWritten, hplan, hresult] at hwritten

theorem watcherStep_inv (scope : Scope) {w : LoopWorld} (h : w.Inv config settings)
    (hadmitted : w.Admitted config settings (.watcher scope)) :
    (watcherStep config settings scope w).Inv config settings := by
  have hsame : ∀ watcher, ({ w with watcher } : LoopWorld).Inv config settings :=
    fun watcher => ⟨h.coverage, h.inOrder⟩
  unfold watcherStep
  split
  next => exact hsame _
  next headCall _ =>
    split
    next => exact hsame _
    next =>
      split
      next => exact hsame _
      next => exact hsame _
  next => exact hsame _
  next head id rest _ =>
    split
    next => exact hsame _
    next => exact hsame _
  next => exact hsame _
  next head d receiptCall rest _ =>
    split
    next => exact hsame _
    next => exact hsame _
  next head id found rest hjudged =>
    cases hcommit : Tx.commit (reverifyTx settings scope head found id) w.db with
    | mk result db =>
        have hwritten : Coverage config settings db w.seen w.chain := by
          cases result with
          | error e =>
              rw [Tx.commit_error hcommit]
              exact h.coverage
          | ok verdict =>
              have hpost := (reverifyTx_ensures settings scope head found id
                w.db).commit_ok hcommit
              rcases hpost with ⟨_, _, rfl⟩ | ⟨d, hd, hreverified⟩
              · exact h.coverage
              · have hkey := Table.key_of_find? hd
                subst hkey
                apply h.coverage.reverified hd hreverified
                intro hnone state hstate entry hseen hentry hheight hid
                subst hnone
                exact hadmitted head d.identity rest hjudged
                  ⟨state, entry, hstate, hseen, hentry, hheight, hid⟩
        cases result with
        | error e => exact ⟨hwritten, h.inOrder⟩
        | ok verdict => exact ⟨hwritten, h.inOrder⟩

theorem step_inv (w : LoopWorld) (action : LoopAction) (h : w.Inv config settings)
    (hadmitted : w.Admitted config settings action) :
    (step config settings action w).Inv config settings := by
  cases action with
  | chain chainStep => exact chainStep_inv chainStep h
  | scanner scope newId => exact scannerStep_inv scope newId h hadmitted
  | watcher scope => exact watcherStep_inv scope h hadmitted

/-- With the cursor on the chain, everything below it is what the scanner has read. -/
theorem Inv.nothingLost {w : LoopWorld} (h : w.Inv config settings) :
    w.NothingLost config settings := by
  intro _ _ state hash hstate hhash hsame d hd entry hentry _ htx hindex
  have hseen := h.coverage.seen_consistent
  have hchain := h.coverage.chain_consistent
  obtain ⟨hon, hheight⟩ := (mem_logsUpTo hchain).mp hentry
  obtain ⟨b, hb, hlast⟩ := h.coverage.certified state hstate
  obtain ⟨hmem, hcanonical, hnumber⟩ := (canonicalAt_iff hseen).mp hb
  obtain ⟨b', hb', hhash'⟩ := Option.map_eq_some_iff.mp hsame
  obtain ⟨hmem', hcanonical', _⟩ := (canonicalAt_iff hchain).mp hb'
  have hblock : b.hash = b'.hash := by
    rw [hhash']
    exact Option.some.inj (hlast.symm.trans hhash)
  have heq := h.coverage.later.canonical_before b' hmem' hcanonical' b hmem hblock
  subst heq
  obtain ⟨tx, block, hemitted⟩ := hon
  have hon : OnChain config w.chain entry := ⟨tx, block, hemitted⟩
  obtain rfl := hemitted.entry_eq
  change block.number ≤ state.lastScannedBlock at hheight
  have hbelow := h.coverage.later.same_below hseen hchain hmem hmem' hcanonical
    hemitted.block_mem hemitted.canonical (by omega)
  have hbefore := h.coverage.later.onChain_before hon ⟨block, hbelow, rfl⟩
  -- the row is about this transaction, so the log concerns custody
  obtain ⟨hnetwork, tx', htx', htxHash, hto, hwatch⟩ := h.coverage.traced d hd
  have hsameTx : tx' = tx := w.chain.transactions.eq_of_mem_of_key_eq htx' hemitted.tx_mem
    (htxHash.trans htx)
  subst hsameTx
  obtain ⟨row, hrow, hlive⟩ := h.coverage.vouched state hstate _ hbefore hon hheight hwatch
  have hid : d.identity = (tx'.log config block).identity := by
    simp only [Deposit.identity, TransferLog.identity, hnetwork, htx, hindex]
    rfl
  have hfind := w.db.deposits.find?_of_mem hd
  rw [hid, hrow, Option.some.injEq] at hfind
  rw [← hfind]
  exact hlive

/-- In every run of the two loops and the chain whose steps are admitted, no deposit
is lost between them. -/
theorem admitted_runs_lose_nothing {init : LoopWorld} (hinit : init.Fresh config)
    {actions : List LoopAction}
    (hadmitted : AdmittedRun (step config settings) (Admitted config settings) init actions) :
    (runSteps (step config settings) init actions).NothingLost config settings := by
  have hinv := hadmitted.invariant (I := fun w : LoopWorld => w.Inv config settings) step_inv
    hinit.inv
  exact hinv.nothingLost

end

/-! ### A deposit given up after the scanner passed it by -/

def freshLoops : LoopWorld := ⟨depositChain 2, .custody, depositChain 2, .idle, .idle⟩

def someScan : LoopAction := .scanner someScope fun _ => someUuid 100

def someWatch : LoopAction := .watcher someScope

/-- The five steps of one run of the scanner. -/
def scanRun : List LoopAction := List.replicate 5 someScan

/-- The watcher asks for the receipt while the blocks of the deposit are orphaned, and
writes the answer after they were rebuilt and the scanner has read them. -/
def lostRun : List LoopAction :=
  scanRun ++ List.replicate 3 someWatch ++ [.chain (.orphan 3 [])] ++
    List.replicate 2 someWatch ++
    [.chain (.mineBlock (someUuid 10)), .chain (.mineBlock (someUuid 11)),
      .chain (.mineBlock (someUuid 12))] ++
    scanRun ++ List.replicate 2 someWatch

@[irreducible] def lostWorld : LoopWorld :=
  runSteps (step .bsc .standard) freshLoops lostRun

theorem lostWorld_reads :
    (match lostWorld.scanner, lostWorld.watcher with
      | .idle, .idle => true
      | _, _ => false) = true ∧
      ∃ state ∈ lostWorld.db.scanState.rows,
        lostWorld.db.scanState.find? "BSC" = some state ∧
        state.lastScannedHash.isSome ∧
        (canonicalAt lostWorld.chain state.lastScannedBlock).map MockChain.MockBlock.hash =
          state.lastScannedHash ∧
        ∃ d ∈ lostWorld.db.deposits.rows,
          ∃ entry ∈ logsUpTo .bsc lostWorld.chain state.lastScannedBlock,
            state.lastScannedBlock ≤
              entry.blockNumber + Settings.standard.reorgSafetyBlocks ∧
            d.txHash = entry.txHash ∧ d.logIndex = entry.logIndex ∧
            d.status = .reorged := by
  decide +kernel

theorem passed_by_deposit_is_lost : ¬lostWorld.NothingLost .bsc .standard := by
  intro hnothing
  obtain ⟨hidle, state, _, hstate, hsome, hsame, d, hd, entry, hentry, hclose, htx, hindex,
    hreorged⟩ := lostWorld_reads
  obtain ⟨hash, hhash⟩ := Option.isSome_iff_exists.mp hsome
  have hphases : lostWorld.scanner = .idle ∧ lostWorld.watcher = .idle := by
    split at hidle
    next hscanner hwatcher => exact ⟨hscanner, hwatcher⟩
    next => cases hidle
  exact hnothing hphases.1 hphases.2 state hash hstate hhash (hsame.trans hhash) d hd entry
    hentry hclose htx hindex hreorged

/-! ### A deposit given up in time -/

/-- A check of the condition by evaluation, on a chain whose blocks are linked. -/
def admits (config : MockChain.Config) (settings : Settings) (w : LoopWorld) :
    LoopAction → Bool
  | .chain _ => true
  | .scanner scope newId =>
    match w.scanner with
    | .running calls .commit =>
      !cursorWritten (MockChain.adapter config) settings scope newId calls w.db ||
        decide (calls.HeadKept ∧ ForkBounded settings w.db w.seen calls.cursor)
    | _ => true
  | .watcher _ =>
    match w.watcher with
    | .judged _ id none _ =>
      (w.db.scanState.find? settings.network).all fun state =>
        (logsUpTo config w.chain state.lastScannedBlock).all fun entry =>
          decide (entry.identity ≠ id)
    | _ => true

theorem admitted_of_admits {config : MockChain.Config} {settings : Settings} {w : LoopWorld}
    (hchain : Consistent w.chain) {action : LoopAction}
    (h : w.admits config settings action = true) : w.Admitted config settings action := by
  cases action with
  | chain chainStep => trivial
  | scanner scope newId =>
      intro calls hrunning hwritten
      simpa [admits, hrunning, hwritten] using h
  | watcher scope =>
      rintro head id rest hjudged ⟨state, entry, hstate, _, hon, hheight, hid⟩
      simp only [admits, hjudged, hstate, Option.all_some, List.all_eq_true,
        decide_eq_true_eq] at h
      exact h entry ((mem_logsUpTo hchain).mpr ⟨hon, hheight⟩) hid

theorem step_consistent {config : MockChain.Config} {settings : Settings} (w : LoopWorld)
    (action : LoopAction) (h : Consistent w.chain) :
    Consistent (step config settings action w).chain := by
  cases action with
  | chain chainStep => exact chainStep_consistent config w.chain chainStep h
  | scanner scope newId =>
      simp only [step, scannerStep]
      split <;> exact h
  | watcher scope =>
      simp only [step, watcherStep]
      repeat' split
      all_goals exact h

/-- The watcher gives the deposit up while its blocks are orphaned, and the scanner finds
it in the blocks which were rebuilt. -/
def foundAgainRun : List LoopAction :=
  scanRun ++ List.replicate 3 someWatch ++ [.chain (.orphan 3 [])] ++
    List.replicate 4 someWatch ++
    [.chain (.mineBlock (someUuid 10)), .chain (.mineBlock (someUuid 11)),
      .chain (.mineBlock (someUuid 12))] ++
    scanRun

def statuses (actions : List LoopAction) : List DepositStatus :=
  (runSteps (step .bsc .standard) freshLoops actions).db.deposits.rows.map (·.status)

theorem foundAgainRun_facts :
    AdmittedRun (step .bsc .standard) (fun w action => w.admits .bsc .standard action = true)
        freshLoops foundAgainRun ∧
      statuses (foundAgainRun.take 13) = [.reorged] ∧ statuses foundAgainRun = [.detected] := by
  decide +kernel

theorem reorged_deposit_is_found_again :
    statuses (foundAgainRun.take 13) = [.reorged] ∧ statuses foundAgainRun = [.detected] ∧
      (runSteps (step .bsc .standard) freshLoops foundAgainRun).NothingLost .bsc
        .standard := by
  have hreachable := depositChain_reachable 2
  have hfresh : freshLoops.Fresh .bsc := ⟨hreachable, rfl, rfl, rfl, rfl, rfl⟩
  obtain ⟨hadmits, hreorged, hfound⟩ := foundAgainRun_facts
  have hadmitted := hadmits.mono_of_invariant
    (I := fun w : LoopWorld => Consistent w.chain) step_consistent
    (fun _ _ hchain h => admitted_of_admits hchain h) hreachable.consistent
  exact ⟨hreorged, hfound, admitted_runs_lose_nothing hfresh hadmitted⟩

end LoopWorld
end CryptoWallet.Blockchain
