import CryptoWallet.FinalityWindow

/-!
# Reorgs which move a deposit to another block

The transaction of a deposit may come back in the new fork, with a new block and a new
index for its log.  The watcher looks for the log under the index which the row was
recorded with, so it only finds a log which kept its index.
-/

namespace CryptoWallet.Blockchain

open Tx
open MockChain (MockBlock OnChain headNumber)

variable {σ : Type}

/-! ## Events about the transaction -/

def detectedEventId (id : DepositId) (blockHash : ChainHash) : EventId :=
  .uuid5 (EventType.depositDetected.name ++ "|" ++ DepositId.inBlock id blockHash)

theorem detectedEvent_eventId (scope : Scope) (entry : TransferLog) (payload : Payload) :
    (detectedEvent scope entry payload).eventId =
      detectedEventId entry.identity entry.blockHash := by
  simp [detectedEvent, depositEvent, newEvent, detectedEventId,
    DepositId.inBlock_ne_empty]

theorem detectedEventId_inj {id id' : DepositId} {blockHash blockHash' : ChainHash}
    (h : detectedEventId id blockHash = detectedEventId id' blockHash') : id = id' := by
  simp only [detectedEventId, EventId.uuid5.injEq, String.append_right_inj] at h
  exact (DepositId.inBlock_inj h).1

theorem detectedEventId_ne_watched (id id' : DepositId) (blockHash blockHash' : ChainHash) :
    detectedEventId id blockHash ≠ reorgedEventId id' blockHash' ∧
      detectedEventId id blockHash ≠ confirmedEventId id' blockHash' := by
  constructor
  · intro h
    simp only [detectedEventId, reorgedEventId, EventId.uuid5.injEq] at h
    have hlist := congrArg String.toList h
    simp [EventType.name] at hlist
  · intro h
    simp only [detectedEventId, confirmedEventId, EventId.uuid5.injEq] at h
    have hlist := congrArg String.toList h
    simp [EventType.name] at hlist

/-- The deposit is reported to be gone, or its transaction to be new. -/
def Misreport (id : DepositId) (event : EventId) : Prop :=
  (∃ blockHash, event = reorgedEventId id blockHash) ∨
    ∃ id' blockHash, id'.2.1 = id.2.1 ∧ event = detectedEventId id' blockHash

/-- No such event is added to the outbox. -/
def Discreet (id : DepositId) (db db' : Db) : Prop :=
  ∀ event, Misreport id event → db'.outbox.Has event → db.outbox.Has event

theorem Discreet.refl (id : DepositId) (db : Db) : Discreet id db db :=
  fun _ _ hhas => hhas

theorem Discreet.trans {id : DepositId} {db db' db'' : Db} (h : Discreet id db db')
    (h' : Discreet id db' db'') : Discreet id db db'' :=
  fun event hevent hhas => h event hevent (h' event hevent hhas)

/-! ## The scanner -/

section Scanner

variable {scope : Scope} {db db' : Db}

theorem Upserted.discreet {newId : Uuid} {entry : TransferLog}
    (h : Upserted scope newId entry db db') (hnetwork : entry.network.length ≤ 32)
    {id : DepositId} {d : Deposit} (hd : db.deposits.find? id = some d)
    (hlive : d.status ≠ .reorged) (hsame : entry.txHash = id.2.1 → entry.identity = id) :
    Discreet id db db' := by
  have hadded : ∀ {payload outbox}, entry.identity ≠ id →
      enqueueEvent db.outbox (detectedEvent scope entry payload) = .ok outbox →
      ∀ event, Misreport id event → outbox.Has event → db.outbox.Has event := by
    intro payload outbox hne houtbox event hevent hhas
    rcases enqueueEvent_has_cases houtbox hhas with hold | rfl
    · exact hold
    · rw [detectedEvent_eventId] at hevent
      rcases hevent with ⟨blockHash, heq⟩ | ⟨id', blockHash, htxHash, heq⟩
      · exact ((detectedEventId_ne_watched _ _ _ _).1 heq).elim
      · rw [← detectedEventId_inj heq] at htxHash
        exact (hne (hsame htxHash)).elim
  cases h with
  | inserted proposed hproposed deposits hinsert payload hpayload outbox houtbox =>
      refine hadded ?_ houtbox
      intro heq
      have hfree := Table.insert?_free hinsert
      rw [hproposed.identity hnetwork, heq, hd] at hfree
      cases hfree
  | revived proposed hproposed stored hstored hreorged payload hpayload outbox houtbox =>
      refine hadded ?_ houtbox
      intro heq
      rw [hproposed.identity hnetwork, heq, hd, Option.some.injEq] at hstored
      exact hlive (hstored ▸ hreorged)
  | known proposed hproposed stored hstored hlive' => exact .refl id db

theorem UpsertedAll.discreet {newId : TransferLog → Uuid} {logs : List TransferLog}
    (h : UpsertedAll scope newId logs db db')
    (hnetwork : ∀ entry ∈ logs, entry.network.length ≤ 32) {id : DepositId} {d : Deposit}
    (hd : db.deposits.find? id = some d) (hlive : d.status ≠ .reorged)
    (hsame : ∀ entry ∈ logs, entry.txHash = id.2.1 → entry.identity = id) :
    Discreet id db db' := by
  induction h with
  | nil db => exact .refl id db
  | cons hfirst hrest ih =>
      have hfirst' := hfirst.discreet (hnetwork _ List.mem_cons_self) hd hlive
        (hsame _ List.mem_cons_self)
      exact hfirst'.trans (ih (fun e he => hnetwork e (List.mem_cons_of_mem _ he))
        (hfirst.live_kept hd hlive) fun e he => hsame e (List.mem_cons_of_mem _ he))

/-- The scanner confirms nothing. -/
theorem Upserted.confirmed_before {newId : Uuid} {entry : TransferLog}
    (h : Upserted scope newId entry db db') {id : DepositId} {d : Deposit}
    (hd : db'.deposits.find? id = some d) (hconfirmed : d.status = .confirmed) :
    db.deposits.find? id = some d := by
  cases h with
  | inserted proposed hproposed deposits hinsert payload hpayload outbox houtbox =>
      have hfind := Table.find?_insert? hinsert id
      rw [hd] at hfind
      split at hfind
      · cases hfind
        rw [hproposed.status] at hconfirmed
        cases hconfirmed
      · exact hfind.symm
  | revived proposed hproposed stored hstored hreorged payload hpayload outbox houtbox =>
      by_cases hid : id = (stored.revived entry).identity
      · have hstored' : stored.identity = proposed.identity := Table.key_of_find? hstored
        have hkey : (stored.revived entry).identity = proposed.identity := hstored'
        have hfind : (db.deposits.replace (stored.revived entry)).find? proposed.identity =
            some (stored.revived entry) := Table.find?_replace_of_key _ hkey hstored
        rw [← hkey, ← hid] at hfind
        cases hd.symm.trans hfind
        cases hconfirmed
      · exact (Table.find?_replace_of_ne _ _ hid).symm.trans hd
  | known proposed hproposed stored hstored hlive => exact hd

theorem UpsertedAll.confirmed_before {newId : TransferLog → Uuid} {logs : List TransferLog}
    (h : UpsertedAll scope newId logs db db') {id : DepositId} {d : Deposit}
    (hd : db'.deposits.find? id = some d) (hconfirmed : d.status = .confirmed) :
    db.deposits.find? id = some d := by
  induction h with
  | nil db => exact hd
  | cons hfirst hrest ih => exact hfirst.confirmed_before (ih hd) hconfirmed

end Scanner

/-! ## The watcher -/

/-- The row is confirmed in the block of the log. -/
def ConfirmedAt (db : Db) (id : DepositId) (entry : TransferLog) : Prop :=
  ∃ d, db.deposits.find? id = some d ∧ d.status = .confirmed ∧
    d.blockNumber = entry.blockNumber ∧ d.blockHash = entry.blockHash

section Watcher

variable {adapter : ChainAdapter σ} {settings : Settings} {scope : Scope} {head : Nat}
  {db : Db}

/-- The watcher detects nothing. -/
theorem reverify_detects_nothing (calls : LookupCalls σ) (key id : DepositId)
    (blockHash : ChainHash) {db : Db}
    (hhas : (reverify adapter settings scope calls head key db).2.outbox.Has
      (detectedEventId id blockHash)) : db.outbox.Has (detectedEventId id blockHash) := by
  rcases reverify_cases adapter settings scope calls head key db with
    hraised | ⟨_, hgone⟩ | ⟨d, found, verdict, db', _, _, hreverified, hreturned⟩
  · rwa [hraised] at hhas
  · rwa [hgone] at hhas
  · rw [hreturned] at hhas
    cases hreverified with
    | reorged payload hpayload outbox houtbox =>
        rcases enqueueEvent_has_cases houtbox hhas with hold | hnew
        · exact hold
        · rw [reorgedEvent_eventId] at hnew
          exact ((detectedEventId_ne_watched _ _ _ _).1 hnew).elim
    | confirmed blockNumber blockHash hripe payload hpayload outbox houtbox =>
        rcases enqueueEvent_has_cases houtbox hhas with hold | hnew
        · exact hold
        · rw [confirmedEvent_eventId] at hnew
          exact ((detectedEventId_ne_watched _ _ _ _).2 hnew).elim
    | moved blockNumber blockHash hripe => exact hhas

/-- The log is looked for in the block of the receipt, under the index of the row. -/
theorem locate_moved {letterCase : LetterCase} {chain : σ} {view : ChainView}
    (hshows : Shows adapter letterCase chain view) {d : Deposit} {entry : TransferLog}
    (hentry : entry ∈ view.logs) (hhash : entry.txHash = d.txHash)
    (hto : entry.toAddress = d.toAddress.val) (hmoved : entry.blockHash ≠ d.blockHash)
    (hone : ∀ e ∈ view.logs, e.txHash = entry.txHash → e = entry) :
    locate adapter (.fixed chain) d =
      .ok (if entry.logIndex = d.logIndex then some (entry.blockNumber, entry.blockHash)
        else none) := by
  have hreceipt := view.log_receipt entry hentry
  rw [hhash] at hreceipt
  obtain ⟨logs, hlogs, hmem⟩ :=
    hshows.logs entry.blockNumber entry.blockNumber [d.toAddress.val]
  have hlisted : entry ∈ logs := by
    rw [hmem]
    exact ⟨hentry, ⟨le_rfl, le_rfl⟩, Or.inr (by simp [hto])⟩
  have hfound : ∀ e ∈ logs, e.txHash = d.txHash → e = entry := by
    intro e he hsame
    exact hone e ((hmem e).mp he).1 (hsame.trans hhash.symm)
  simp only [locate, LookupCalls.fixed, hshows.receipt, hreceipt, bind, Except.bind,
    if_neg hmoved, hlogs, pure, Except.pure]
  congr 1
  cases hfind : logs.find? fun e => e.txHash = d.txHash && e.logIndex = d.logIndex with
  | none =>
      have hnot := List.find?_eq_none.mp hfind entry hlisted
      simp only [hhash, decide_true, Bool.true_and, decide_eq_true_eq] at hnot
      rw [if_neg hnot, Option.map_none]
  | some e =>
      have hmatch := List.find?_some hfind
      simp only [Bool.and_eq_true, decide_eq_true_eq] at hmatch
      have heq := hfound e (List.mem_of_find?_eq_some hfind) hmatch.1
      subst heq
      rw [if_pos hmatch.2, Option.map_some]

/-- The visit of a confirmed deposit whose log was found moves it and tells nobody. -/
theorem Reverified.moves {d : Deposit} {blockNumber : Nat} {blockHash : ChainHash} {db' : Db}
    (h : Reverified settings scope head db d (some (blockNumber, blockHash)) db')
    (hd : db.deposits.find? d.identity = some d) (hconfirmed : d.status = .confirmed) :
    db'.outbox = db.outbox ∧
      db'.deposits.find? d.identity = some (d.movedTo head blockNumber blockHash) := by
  cases h with
  | confirmed blockNumber blockHash hripe payload hpayload outbox houtbox =>
      have hdetected := hripe.1
      rw [hconfirmed] at hdetected
      cases hdetected
  | moved blockNumber blockHash hripe =>
      exact ⟨rfl, Table.find?_replace_of_key _ rfl hd⟩

/-- The visit of a deposit whose log was not found reverses it. -/
theorem Reverified.loses {d : Deposit} {db' : Db}
    (h : Reverified settings scope head db d none db')
    (hd : db.deposits.find? d.identity = some d) :
    db'.deposits.find? d.identity = some (d.reorgedAtTime scope.now) := by
  cases h with
  | reorged payload hpayload outbox houtbox => exact Table.find?_replace_of_key _ rfl hd

section Run

variable {letterCase : LetterCase} {chain : σ} {view : ChainView} {d : Deposit}
  {entry : TransferLog}

/-- A run of the watcher leaves a confirmed deposit confirmed in its new block, if and
only if the row is within the window and the log has kept its index. -/
theorem watchDepositsOnce_confirmedAt_iff (hshows : Shows adapter letterCase chain view)
    (hhead : view.head ≠ 0) (settings : Settings) (scope : Scope)
    (hassets : db.AssetsKnown) (hd : db.deposits.find? d.identity = some d)
    (hconfirmed : d.status = .confirmed) (hentry : entry ∈ view.logs)
    (hhash : entry.txHash = d.txHash) (hto : entry.toAddress = d.toAddress.val)
    (hmoved : entry.blockHash ≠ d.blockHash)
    (hone : ∀ e ∈ view.logs, e.txHash = entry.txHash → e = entry) :
    ConfirmedAt (watchDepositsOnce adapter settings scope chain (fun _ => .fixed chain) db).2
        d.identity entry ↔
      view.head < d.blockNumber + settings.finalityDepth ∧ entry.logIndex = d.logIndex := by
  have hrun := watchDepositsOnce_completes hshows settings scope hassets
  have hresult : watchDepositsOnce adapter settings scope chain (fun _ => .fixed chain) db =
      reverifyAll adapter settings scope (fun _ => .fixed chain) view.head
        (watchlist settings view.head db) db := by
    simp only [watchDepositsOnce, hshows.head, if_neg hhead]
  have hwatched : d.identity ∈ watchlist settings view.head db ↔
      view.head < d.blockNumber + settings.finalityDepth := by
    rw [mem_watchlist]
    simp [hd, Deposit.watched, hconfirmed]
  rw [hresult] at hrun ⊢
  rw [← hwatched]
  by_cases hlist : d.identity ∈ watchlist settings view.head db
  · obtain ⟨found, before, after, hfound, hreverified, hd', hrow, _⟩ :=
      reverifyAll_turn (watchlist_nodup settings view.head db) hrun hlist hd
    rw [locate_moved hshows hentry hhash hto hmoved hone, Except.ok.injEq] at hfound
    subst hfound
    unfold ConfirmedAt
    rw [hrow]
    by_cases hindex : entry.logIndex = d.logIndex
    · rw [if_pos hindex] at hreverified
      have hmoves := hreverified.moves hd' hconfirmed
      exact iff_of_true ⟨_, hmoves.2, hconfirmed, rfl, rfl⟩ ⟨hlist, hindex⟩
    · rw [if_neg hindex] at hreverified
      have hlost := hreverified.loses hd'
      refine iff_of_false ?_ fun h => hindex h.2
      rintro ⟨row, hrow, hstays, _⟩
      rw [hlost, Option.some.injEq] at hrow
      rw [← hrow] at hstays
      cases hstays
  · refine iff_of_false ?_ fun h => hlist h.1
    rintro ⟨row, hrow, _, _, hblock⟩
    rw [reverifyAll_other hlist, hd, Option.some.injEq] at hrow
    exact hmoved (by rw [← hblock, hrow])

/-- A run which finds the log of a confirmed deposit misreports nothing about it. -/
theorem watchDepositsOnce_discreet (hshows : Shows adapter letterCase chain view)
    (hhead : view.head ≠ 0) (settings : Settings) (scope : Scope)
    (hassets : db.AssetsKnown) (hd : db.deposits.find? d.identity = some d)
    (hconfirmed : d.status = .confirmed) (hentry : entry ∈ view.logs)
    (hhash : entry.txHash = d.txHash) (hto : entry.toAddress = d.toAddress.val)
    (hmoved : entry.blockHash ≠ d.blockHash)
    (hone : ∀ e ∈ view.logs, e.txHash = entry.txHash → e = entry)
    (hwindow : view.head < d.blockNumber + settings.finalityDepth)
    (hindex : entry.logIndex = d.logIndex) :
    Discreet d.identity db
      (watchDepositsOnce adapter settings scope chain (fun _ => .fixed chain) db).2 := by
  have hrun := watchDepositsOnce_completes hshows settings scope hassets
  have hresult : watchDepositsOnce adapter settings scope chain (fun _ => .fixed chain) db =
      reverifyAll adapter settings scope (fun _ => .fixed chain) view.head
        (watchlist settings view.head db) db := by
    simp only [watchDepositsOnce, hshows.head, if_neg hhead]
  have hlist : d.identity ∈ watchlist settings view.head db := by
    rw [mem_watchlist]
    exact ⟨d, hd, by simp [Deposit.watched, hconfirmed, hwindow]⟩
  rw [hresult] at hrun ⊢
  intro event hevent hhas
  rcases hevent with ⟨blockHash, rfl⟩ | ⟨id', blockHash, _, rfl⟩
  · obtain ⟨before, outcome, rest, hbefore, hvisit, _, hrow⟩ :=
      visitAll_turn (reverify_reorgNews (fun _ => .fixed chain) blockHash)
        (watchlist_nodup settings view.head db) hrun hlist
    simp only [reorgNews, Prod.mk.injEq, decide_eq_decide] at hbefore hrow
    have hd' := hbefore.1.trans hd
    rcases reverify_cases adapter settings scope (.fixed chain) view.head d.identity before
      with hraised | ⟨hnone, _⟩ | ⟨d', found, verdict, after, hfind, hfound, hreverified,
        hreturned⟩
    · rw [hraised] at hvisit
      cases hvisit
    · rw [hd'] at hnone
      cases hnone
    · rw [hd', Option.some.injEq] at hfind
      subst hfind
      rw [locate_moved hshows hentry hhash hto hmoved hone, if_pos hindex,
        Except.ok.injEq] at hfound
      subst hfound
      have hmoves := hreverified.moves hd' hconfirmed
      rw [hreturned, hmoves.1] at hrow
      exact hbefore.2.mp (hrow.2.mp hhas)
  · have hkept : ∀ ids (db' : Db), (db'.outbox.Has (detectedEventId id' blockHash) →
        db.outbox.Has (detectedEventId id' blockHash)) →
          (reverifyAll adapter settings scope (fun _ => .fixed chain) view.head ids
            db').2.outbox.Has (detectedEventId id' blockHash) →
          db.outbox.Has (detectedEventId id' blockHash) := by
      intro ids db' hdb'
      apply visitAll_preserves (I := fun db' : Db =>
        db'.outbox.Has (detectedEventId id' blockHash) →
          db.outbox.Has (detectedEventId id' blockHash)) _ hdb'
      intro key _ db₁ h₁ hhas₁
      exact h₁ (reverify_detects_nothing _ key id' blockHash hhas₁)
    exact hkept _ db (fun h => h) hhas

end Run

end Watcher

/-! ## A reorg of the simulated chain -/

/-- The row repeats the log and the place of the log. -/
structure Deposit.RecordedFrom (d : Deposit) (entry : TransferLog) : Prop where
  identity : d.identity = entry.identity
  toAddress : d.toAddress.val = entry.toAddress
  blockNumber : d.blockNumber = entry.blockNumber
  blockHash : d.blockHash = entry.blockHash

/-- The deposit is confirmed in its new block, and nobody is told otherwise. -/
def Remined (id : DepositId) (entry : TransferLog) (db db' : Db) : Prop :=
  ConfirmedAt db' id entry ∧ Discreet id db db'

theorem victims_of_orphans {config : MockChain.Config} {depth : Nat} {s s' : MockChain.State}
    {block : MockBlock} (h : Orphans config depth s s' block) :
    block ∈ MockChain.victims depth s := by
  have hle := MockChain.number_le_headNumber h.mem h.canonical
  have hgenesis := h.above_genesis
  have hwithin := h.within
  have hpositive : headNumber s ≠ 0 := by omega
  obtain ⟨head, hhead, hnumber⟩ := MockChain.head?_of_headNumber hpositive
  simp only [MockChain.victims, hhead]
  rw [List.mem_insertionSort, Table.select, List.mem_filter]
  refine ⟨h.mem, ?_⟩
  rw [← hnumber] at hwithin
  simp only [h.canonical, Bool.true_and, decide_eq_true_eq]
  omega

/-- A log of a transaction which came back is in another block. -/
theorem Orphans.moved {config : MockChain.Config} {depth : Nat} {s s' : MockChain.State}
    {block : MockBlock} (h : Orphans config depth s s' block)
    (hs : MockChain.Reachable config s) {entry : TransferLog}
    (hentry : OnChain config s' entry) : entry.blockHash ≠ block.hash := by
  obtain ⟨tx, block', hemitted⟩ := hentry
  obtain rfl := hemitted.entry_eq
  have hvictim := victims_of_orphans h
  have hlonger := h.longer
  obtain ⟨drop, draw, rfl⟩ := h.reorg
  have hran : MockChain.reorg config depth drop draw s ≠ s := by
    intro hsame
    rw [hsame] at hlonger
    omega
  exact MockChain.reorg_replaces hs.consistent hvictim h.mem hran block' hemitted.block_mem
    hemitted.canonical

theorem Orphans.later {config : MockChain.Config} {depth : Nat} {s s' : MockChain.State}
    {block : MockBlock} (h : Orphans config depth s s' block)
    (hs : MockChain.Reachable config s) : MockChain.Later s s' := by
  obtain ⟨drop, draw, rfl⟩ := h.reorg
  obtain ⟨steps, hsteps⟩ := MockChain.reorg_eq_run config depth drop draw s
  rw [hsteps]
  exact (MockChain.Later.run config hs.consistent steps).1

/-- Two logs of one transaction go to one address, on one network. -/
theorem onChain_alike {config : MockChain.Config} {s s' : MockChain.State}
    (h : MockChain.Later s s') {entry entry' : TransferLog} (hentry : OnChain config s entry)
    (hentry' : OnChain config s' entry') (hhash : entry'.txHash = entry.txHash) :
    entry'.network = entry.network ∧ entry'.toAddress = entry.toAddress := by
  obtain ⟨tx, block, hemitted⟩ := hentry
  obtain ⟨tx', block', hemitted'⟩ := hentry'
  obtain rfl := hemitted.entry_eq
  obtain rfl := hemitted'.entry_eq
  obtain ⟨kept, hkept, hsame⟩ := h.submitted_kept tx hemitted.tx_mem
  have heq : tx' = kept := s'.transactions.eq_of_mem_of_key_eq hemitted'.tx_mem hkept
    (hhash.trans hsame.hash.symm)
  subst heq
  exact ⟨rfl, congrArg Subtype.val hsame.toAddress⟩

/-- A run of the scanner leaves a live row alone, and misreports nothing about a deposit
whose log has its index. -/
theorem scanOnce_discreet {config : MockChain.Config} (settings : Settings)
    {s : MockChain.State} (hs : MockChain.Consistent s) {db : Db} {d : Deposit}
    (hd : db.deposits.find? d.identity = some d) (hlive : d.status ≠ .reorged)
    {entry : TransferLog} (hentry : OnChain config s entry)
    (hsame : entry.identity = d.identity) (scope : Scope) (newId : TransferLog → Uuid) :
    (scanOnce (MockChain.adapter config) settings scope newId (.fixed s)
        db).2.deposits.find? d.identity = some d ∧
      Discreet d.identity db
        (scanOnce (MockChain.adapter config) settings scope newId (.fixed s) db).2 := by
  rcases scanOnce_cases (MockChain.adapter config) settings scope newId (.fixed s) db with
    ⟨hkept, _⟩ | ⟨plan, mid, hplan, hmid, hresult⟩
  · rw [hkept]
    exact ⟨hd, .refl _ db⟩
  · rw [hresult]
    obtain ⟨head, cursor, fetched, _, _, _, _, _, hfetched, hlogs, _⟩ := scanPlan_some hplan
    have honChain : ∀ e ∈ plan.logs, OnChain config s e :=
      fun e he => ((mem_fetchLogs hs hfetched hlogs).mp he).1
    have hnetwork : ∀ e ∈ plan.logs, e.network.length ≤ 32 := by
      intro e he
      obtain ⟨tx, block, hemitted⟩ := honChain e he
      rw [hemitted.entry_eq]
      exact config.network.property.1
    refine ⟨hmid.live_kept hd hlive, hmid.discreet hnetwork hd hlive ?_⟩
    intro e he hhash
    have htx : e.txHash = entry.txHash :=
      hhash.trans (congrArg (fun id : DepositId => id.2.1) hsame).symm
    rw [MockChain.onChain_unique (honChain e he) hentry htx, hsame]

theorem scanOnce_confirmed_before {adapter : ChainAdapter σ} {settings : Settings}
    {scope : Scope} {newId : TransferLog → Uuid} {calls : ScanCalls σ} {db : Db}
    {id : DepositId} {entry : TransferLog}
    (h : ConfirmedAt (scanOnce adapter settings scope newId calls db).2 id entry) :
    ConfirmedAt db id entry := by
  rcases scanOnce_cases adapter settings scope newId calls db with
    ⟨hkept, _⟩ | ⟨plan, mid, _, hmid, hresult⟩
  · rwa [hkept] at h
  · rw [hresult] at h
    obtain ⟨d, hd, hconfirmed, hplace⟩ := h
    exact ⟨d, hmid.confirmed_before hd hconfirmed, hconfirmed, hplace⟩

/-- What the two workers do in some order leaves the row alone. -/
theorem scanned_after_watch {config : MockChain.Config} {settings : Settings}
    {s : MockChain.State} (hs : MockChain.Consistent s) {db db' : Db} {id : DepositId}
    {entry : TransferLog} (hentry : OnChain config s entry) (hsame : entry.identity = id)
    (h : Remined id entry db db') (scope : Scope) (newId : TransferLog → Uuid) :
    Remined id entry db
      (scanOnce (MockChain.adapter config) settings scope newId (.fixed s) db').2 := by
  obtain ⟨⟨d, hd, hconfirmed, hplace⟩, hdiscreet⟩ := h
  obtain rfl := Table.key_of_find? hd
  obtain ⟨hkept, hquiet⟩ := scanOnce_discreet settings hs hd (by simp [hconfirmed])
    hentry hsame scope newId
  exact ⟨⟨d, hkept, hconfirmed, hplace⟩, hdiscreet.trans hquiet⟩

/-- Whatever transactions the service has committed, and whatever else a reorg no deeper
than the window drops or mines again: a confirmed deposit which it mines again stays
confirmed in both orders of the workers, if and only if the node is reachable, the block
of the row is not the lowest one of a reorg exactly as deep as the window, and the log has
its old index in the new block. -/
theorem remined_deposits_stay_iff {config : MockChain.Config} {settings : Settings} {db : Db}
    (hdb : Db.empty.Commits settings db) {s s' : MockChain.State}
    (hs : MockChain.Reachable config s) {depth : Nat}
    (hdepth : depth ≤ settings.finalityDepth) {block : MockBlock}
    (hreorg : Orphans config depth s s' block) {d : Deposit}
    (hd : db.deposits.find? d.identity = some d) (hconfirmed : d.status = .confirmed)
    {entry entry' : TransferLog} (hentry : OnChain config s entry)
    (hblock : entry.blockHash = block.hash) (hrecorded : d.RecordedFrom entry)
    (hentry' : OnChain config s' entry') (hhash : entry'.txHash = entry.txHash)
    (scope scope' : Scope) (newId : TransferLog → Uuid) :
    let watch := fun db => (watchDepositsOnce (MockChain.adapter config) settings scope s'
      (fun _ => .fixed s') db).2
    let scan := fun db =>
      (scanOnce (MockChain.adapter config) settings scope' newId (.fixed s') db).2
    (Remined d.identity entry' db (scan (watch db)) ∧
        Remined d.identity entry' db (watch (scan db))) ↔
      MockChain.assertRpcUp s' = .ok () ∧
        block.number + settings.finalityDepth ≠ headNumber s + 1 ∧
        entry'.logIndex = entry.logIndex := by
  intro watch scan
  have hs' := hreorg.consistent hs
  have hmoved := hreorg.moved hs hentry'
  rw [← hblock, ← hrecorded.blockHash] at hmoved
  have hnumber : d.blockNumber = block.number := by
    rw [hrecorded.blockNumber]
    obtain ⟨tx, block', hemitted⟩ := hentry
    obtain rfl := hemitted.entry_eq
    have heq : block' = block :=
      s.blocks.eq_of_mem_of_key_eq hemitted.block_mem hreorg.mem hblock
    rw [← heq]
    rfl
  have hidentity := hrecorded.identity
  simp only [Deposit.identity, TransferLog.identity, Prod.mk.injEq] at hidentity
  obtain ⟨hnetwork, htxHash, hlogIndex⟩ := hidentity
  obtain ⟨hnetwork', hto⟩ := onChain_alike (hreorg.later hs) hentry hentry' hhash
  rw [← hrecorded.toAddress] at hto
  rw [← htxHash] at hhash
  by_cases hup : MockChain.assertRpcUp s' = .ok ()
  · have hshows := MockChain.shows_view config hs' hup
    have hhead : headNumber s' ≠ 0 := by
      rw [hreorg.longer]
      omega
    have hlisted := (MockChain.mem_logsUpTo_head hs').mpr hentry'
    have hone : ∀ e ∈ (MockChain.view config s' hs' hup).logs,
        e.txHash = entry'.txHash → e = entry' := fun e he hsame =>
      MockChain.onChain_unique ((MockChain.mem_logsUpTo_head hs').mp he) hentry' hsame
    have hwatch : ∀ db : Db, db.AssetsKnown → db.deposits.find? d.identity = some d →
        (ConfirmedAt (watch db) d.identity entry' ↔
          headNumber s' < d.blockNumber + settings.finalityDepth ∧
            entry'.logIndex = d.logIndex) :=
      fun db hassets hd => watchDepositsOnce_confirmedAt_iff hshows hhead settings scope hassets
        hd hconfirmed hlisted hhash hto hmoved hone
    have hedge : headNumber s' < d.blockNumber + settings.finalityDepth ↔
        block.number + settings.finalityDepth ≠ headNumber s + 1 := by
      have hwithin := hreorg.within
      rw [hreorg.longer, hnumber]
      omega
    rw [← hedge, ← hlogIndex]
    constructor
    · rintro ⟨⟨hfirst, _⟩, _⟩
      exact ⟨hup, (hwatch db hdb.assetsKnown hd).mp (scanOnce_confirmed_before hfirst)⟩
    · rintro ⟨_, hwindow, hindex⟩
      have hsame : entry'.identity = d.identity := by
        simp only [TransferLog.identity, Deposit.identity, Prod.mk.injEq]
        exact ⟨hnetwork'.trans hnetwork.symm, hhash, hindex⟩
      have hremined : ∀ db : Db, db.AssetsKnown → db.deposits.find? d.identity = some d →
          Remined d.identity entry' db (watch db) :=
        fun db hassets hd => ⟨(hwatch db hassets hd).mpr ⟨hwindow, hindex⟩,
          watchDepositsOnce_discreet hshows hhead settings scope hassets hd hconfirmed hlisted
            hhash hto hmoved hone hwindow hindex⟩
      have hscanned := hdb.trans (scanOnce_commits (MockChain.adapter config) settings scope'
        newId (.fixed s') db)
      obtain ⟨hkept, hquiet⟩ := scanOnce_discreet settings hs' hd
        (by simp [hconfirmed]) hentry' hsame scope' newId
      obtain ⟨hafter, hdiscreet⟩ := hremined (scan db) hscanned.assetsKnown hkept
      exact ⟨scanned_after_watch hs' hentry' hsame (hremined db hdb.assetsKnown hd) scope' newId,
        hafter, hquiet.trans hdiscreet⟩
  · refine iff_of_false ?_ fun h => hup h.1
    rintro ⟨⟨hfirst, _⟩, _⟩
    have hidle : watch db = db := by
      simp only [watch, watchDepositsOnce, getBlockNumber_down config hup]
    have hstays := scanOnce_confirmed_before hfirst
    rw [hidle] at hstays
    obtain ⟨row, hrow, _, _, hplace⟩ := hstays
    rw [hd, Option.some.injEq] at hrow
    exact hmoved (by rw [← hplace, hrow])

/-! ### Two deposits which meet in one block -/

instance (d : Deposit) (entry : TransferLog) : Decidable (d.RecordedFrom entry) :=
  decidable_of_iff (d.identity = entry.identity ∧ d.toAddress.val = entry.toAddress ∧
      d.blockNumber = entry.blockNumber ∧ d.blockHash = entry.blockHash)
    ⟨fun ⟨hidentity, hto, hnumber, hhash⟩ => ⟨hidentity, hto, hnumber, hhash⟩,
      fun h => ⟨h.identity, h.toAddress, h.blockNumber, h.blockHash⟩⟩

/-- One deposit in block 2, and one in block 3. -/
def twoDepositSteps : List MockChain.ChainStep :=
  [.ensureStarted, .simulateDeposit custodyAddress.address.val 500 "deposit-1",
    .mineBlock (someUuid 0), .tick 1,
    .simulateDeposit custodyAddress.address.val 300 "deposit-2", .mineBlock (someUuid 1)]

@[irreducible] def twoDeposits : MockChain.State :=
  runSteps (MockChain.chainStep .bsc) .empty twoDepositSteps

def twoDepositTasks : List (ServiceTask MockChain.State) :=
  [.deposits (.issueAddress "user-1" "BSC" custodyAddress.address.val),
    .deposits (.scan someScope (fun _ => someUuid 100) (.fixed twoDeposits)),
    .deposits (.watch someScope twoDeposits fun _ => .fixed twoDeposits)]

@[irreducible] def bothConfirmed : Db :=
  runSteps (ServiceTask.run (MockChain.adapter .bsc) (windowOf 15)) .empty twoDepositTasks

theorem bothConfirmed_commits : Db.empty.Commits (windowOf 15) bothConfirmed := by
  unfold bothConfirmed
  exact ServiceTask.runs_commit (MockChain.adapter .bsc) _ twoDepositTasks .empty

/-- Both blocks are replaced, and the first new block takes up both deposits. -/
@[irreducible] def reunited : MockChain.State :=
  MockChain.reorg .bsc 2 [] (fun n => someUuid (50 + n)) twoDeposits

/-- The row was recorded in this block, and its log is on the new fork. -/
def CameBack (d : Deposit) (entry entry' : TransferLog) (block : MockBlock) : Prop :=
  bothConfirmed.deposits.find? d.identity = some d ∧ d.status = .confirmed ∧
    block.isCanonical = true ∧ entry.blockHash = block.hash ∧ d.RecordedFrom entry ∧
    entry'.txHash = entry.txHash

instance (d : Deposit) (entry entry' : TransferLog) (block : MockBlock) :
    Decidable (CameBack d entry entry' block) :=
  inferInstanceAs (Decidable (_ ∧ _))

def watchReunited (db : Db) : Db :=
  (watchDepositsOnce (MockChain.adapter .bsc) (windowOf 15) drawnScope reunited
    (fun _ => .fixed reunited) db).2

def scanReunited (db : Db) : Db :=
  (scanOnce (MockChain.adapter .bsc) (windowOf 15) drawnScope (fun _ => someUuid 101)
    (.fixed reunited) db).2

theorem reunited_reads :
    (headNumber twoDeposits = 3 ∧ headNumber reunited = 4 ∧
        MockChain.assertRpcUp reunited = .ok ()) ∧
      (∃ d ∈ bothConfirmed.deposits.rows, ∃ entry ∈ MockChain.logsUpTo .bsc twoDeposits 3,
        ∃ entry' ∈ MockChain.logsUpTo .bsc reunited 4, ∃ block ∈ twoDeposits.blocks.rows,
          block.number = 2 ∧ CameBack d entry entry' block ∧
            entry'.logIndex = entry.logIndex) ∧
      ∃ d ∈ bothConfirmed.deposits.rows, ∃ entry ∈ MockChain.logsUpTo .bsc twoDeposits 3,
        ∃ entry' ∈ MockChain.logsUpTo .bsc reunited 4, ∃ block ∈ twoDeposits.blocks.rows,
          block.number = 3 ∧ CameBack d entry entry' block ∧
            ¬bothConfirmed.outbox.Has (reorgedEventId d.identity d.blockHash) ∧
            (scanReunited (watchReunited bothConfirmed)).outbox.Has
              (reorgedEventId d.identity d.blockHash) ∧
            (scanReunited (watchReunited bothConfirmed)).outbox.Has
              (detectedEventId entry'.identity entry'.blockHash) := by
  decide +kernel

theorem reunited_orphans {block : MockBlock} (hmem : block ∈ twoDeposits.blocks.rows)
    (hcanonical : block.isCanonical = true) (hnumber : 2 ≤ block.number) :
    Orphans .bsc 2 twoDeposits reunited block := by
  obtain ⟨⟨hhead, hhead', _⟩, _⟩ := reunited_reads
  refine ⟨⟨[], fun n => someUuid (50 + n), by rw [reunited]⟩, ?_, hmem, hcanonical, ?_, ?_⟩
  · rw [hhead, hhead']
  · unfold MockChain.genesisNumber
    omega
  · rw [hhead]
    omega

theorem twoDeposits_reachable : MockChain.Reachable .bsc twoDeposits := by
  unfold twoDeposits
  exact ⟨twoDepositSteps, rfl⟩

/-- The second deposit has another index in the common block: it is reversed, and its
transaction detected once more. -/
theorem second_deposit_is_reversed :
    Db.empty.Commits (windowOf 15) bothConfirmed ∧ MockChain.Reachable .bsc twoDeposits ∧
      ∃ d ∈ bothConfirmed.deposits.rows, ∃ entry ∈ MockChain.logsUpTo .bsc twoDeposits 3,
        ∃ entry' ∈ MockChain.logsUpTo .bsc reunited 4, ∃ block ∈ twoDeposits.blocks.rows,
          CameBack d entry entry' block ∧ Orphans .bsc 2 twoDeposits reunited block ∧
            ¬Remined d.identity entry' bothConfirmed
              (scanReunited (watchReunited bothConfirmed)) ∧
            (scanReunited (watchReunited bothConfirmed)).outbox.Has
              (detectedEventId entry'.identity entry'.blockHash) := by
  obtain ⟨_, _, d, hd, entry, hentry, entry', hentry', block, hblock, hnumber, hback, hfresh,
    hreorged, hdetected⟩ := reunited_reads
  refine ⟨bothConfirmed_commits, twoDeposits_reachable, d, hd, entry, hentry, entry', hentry',
    block, hblock, hback, reunited_orphans hblock hback.2.2.1 (by omega), ?_, hdetected⟩
  rintro ⟨_, hdiscreet⟩
  exact hfresh (hdiscreet _ (Or.inl ⟨_, rfl⟩) hreorged)

/-- The first deposit keeps its index, and stays confirmed. -/
theorem first_deposit_stays_confirmed :
    ∃ d ∈ bothConfirmed.deposits.rows, ∃ entry' ∈ MockChain.logsUpTo .bsc reunited 4,
      Remined d.identity entry' bothConfirmed (scanReunited (watchReunited bothConfirmed)) ∧
        Remined d.identity entry' bothConfirmed
          (watchReunited (scanReunited bothConfirmed)) := by
  obtain ⟨⟨hhead, hhead', hup⟩, ⟨d, hd, entry, hentry, entry', hentry', block, hblock,
    hnumber, ⟨hfind, hconfirmed, hcanonical, hhash, hrecorded, hsame⟩, hindex⟩, _⟩ :=
      reunited_reads
  have hreorg := reunited_orphans hblock hcanonical (by omega)
  have hs' := hreorg.consistent twoDeposits_reachable
  have hdepth : 2 ≤ (windowOf 15).finalityDepth := by decide
  have hiff := remined_deposits_stay_iff bothConfirmed_commits twoDeposits_reachable hdepth hreorg
    hfind hconfirmed
    ((MockChain.mem_logsUpTo twoDeposits_reachable.consistent).mp hentry).1 hhash hrecorded
    ((MockChain.mem_logsUpTo hs').mp hentry').1 hsame drawnScope drawnScope
    fun _ => someUuid 101
  have hedge : block.number + (windowOf 15).finalityDepth ≠ headNumber twoDeposits + 1 := by
    rw [hnumber, hhead]
    decide
  have hboth := hiff.mpr ⟨hup, hedge, hindex⟩
  refine ⟨d, hd, entry', hentry', ?_⟩
  -- the two runs as functions, so that none is evaluated here
  have hwatch : watchReunited = fun db => (watchDepositsOnce (MockChain.adapter .bsc)
      (windowOf 15) drawnScope reunited (fun _ => .fixed reunited) db).2 := rfl
  have hscan : scanReunited = fun db => (scanOnce (MockChain.adapter .bsc) (windowOf 15)
      drawnScope (fun _ => someUuid 101) (.fixed reunited) db).2 := rfl
  generalize watchReunited = watch at hwatch ⊢
  generalize scanReunited = scan at hscan ⊢
  subst hwatch hscan
  exact hboth

end CryptoWallet.Blockchain
