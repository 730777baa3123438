import CryptoWallet.ChainView
import CryptoWallet.DepositCases

/-!
# What one run of the confirmation watcher does

The run looks at the deposits of its list one after another, and each row is
written in its own turn only.  The list leaves out the deposits which lie
`finality_depth` blocks below the head, whatever their status is.
-/

namespace CryptoWallet.Blockchain

open Tx

variable {σ : Type}

/-! ## One deposit -/

section Reverified

variable {settings : Settings} {scope : Scope} {head : Nat} {db db' : Db} {d : Deposit}
  {found : Option (Nat × ChainHash)}

theorem Reverified.find?_other (h : Reverified settings scope head db d found db')
    {id : DepositId} (hid : id ≠ d.identity) :
    db'.deposits.find? id = db.deposits.find? id := by
  cases h with
  | reorged payload hpayload outbox houtbox =>
      exact Table.find?_replace_of_ne _ (d.reorgedAtTime scope.now) hid
  | confirmed blockNumber blockHash hripe payload hpayload outbox houtbox =>
      exact Table.find?_replace_of_ne _
        ((d.movedTo head blockNumber blockHash).confirmedAtTime scope.now) hid
  | moved blockNumber blockHash hripe =>
      exact Table.find?_replace_of_ne _ (d.movedTo head blockNumber blockHash) hid

theorem enqueueEvent_has {outbox outbox' : Outbox} {envelope : Envelope}
    (h : enqueueEvent outbox envelope = .ok outbox') :
    outbox'.Has envelope.eventId ∧ ∀ id, outbox.Has id → outbox'.Has id := by
  rcases enqueueEvent_cases h with ⟨htaken, rfl⟩ | ⟨_, hrows⟩
  · exact ⟨htaken, fun _ hid => hid⟩
  · refine ⟨?_, ?_⟩
    · rw [Outbox.has_iff, hrows]
      exact ⟨envelope, by simp, rfl⟩
    · intro id hid
      rw [Outbox.has_iff] at hid ⊢
      obtain ⟨old, hold, hkey⟩ := hid
      rw [hrows]
      exact ⟨old, List.mem_append_left _ hold, hkey⟩

theorem Reverified.outbox_has (h : Reverified settings scope head db d found db')
    {id : EventId} (hid : db.outbox.Has id) : db'.outbox.Has id := by
  cases h with
  | reorged payload hpayload outbox houtbox => exact (enqueueEvent_has houtbox).2 id hid
  | confirmed blockNumber blockHash hripe payload hpayload outbox houtbox =>
      exact (enqueueEvent_has houtbox).2 id hid
  | moved blockNumber blockHash hripe => exact hid

/-- Only a visit which finds the log deep enough confirms the deposit. -/
theorem Reverified.confirms (h : Reverified settings scope head db d found db')
    (hd : db.deposits.find? d.identity = some d) (hopen : d.status ≠ .confirmed)
    {d' : Deposit} (hd' : db'.deposits.find? d.identity = some d')
    (hconfirmed : d'.status = .confirmed) :
    ∃ blockNumber blockHash, found = some (blockNumber, blockHash) ∧
      d.ripe settings head blockNumber ∧
      d' = (d.movedTo head blockNumber blockHash).confirmedAtTime scope.now := by
  cases h with
  | reorged payload hpayload outbox houtbox =>
      have hfind : (db.deposits.replace (d.reorgedAtTime scope.now)).find? d.identity =
          some (d.reorgedAtTime scope.now) := Table.find?_replace_of_key _ rfl hd
      cases hfind.symm.trans hd'
      cases hconfirmed
  | confirmed blockNumber blockHash hripe payload hpayload outbox houtbox =>
      have hfind : (db.deposits.replace ((d.movedTo head blockNumber
          blockHash).confirmedAtTime scope.now)).find? d.identity =
          some ((d.movedTo head blockNumber blockHash).confirmedAtTime scope.now) :=
        Table.find?_replace_of_key _ rfl hd
      cases hfind.symm.trans hd'
      exact ⟨blockNumber, blockHash, rfl, hripe, rfl⟩
  | moved blockNumber blockHash hripe =>
      have hfind : (db.deposits.replace (d.movedTo head blockNumber blockHash)).find?
          d.identity = some (d.movedTo head blockNumber blockHash) :=
        Table.find?_replace_of_key _ rfl hd
      cases hfind.symm.trans hd'
      exact (hopen hconfirmed).elim

end Reverified

/-! ## The loop -/

section Loop

variable {adapter : ChainAdapter σ} {settings : Settings} {scope : Scope}
  {calls : DepositId → LookupCalls σ} {head : Nat}

/-- A deposit is written in its own turn only. -/
theorem reverify_ownRow (adapter : ChainAdapter σ) (settings : Settings) (scope : Scope)
    (calls : DepositId → LookupCalls σ) (head : Nat) :
    OwnRow (fun id => reverify adapter settings scope (calls id) head id)
      fun id db => db.deposits.find? id := by
  intro id other db hother
  rcases reverify_cases adapter settings scope (calls id) head id db with
    hraised | ⟨_, hgone⟩ | ⟨d, found, verdict, db', hd, _, hreverified, hreturned⟩
  · simp only [hraised]
  · simp only [hgone]
  · simp only [hreturned]
    apply hreverified.find?_other
    rw [Table.key_of_find? hd]
    exact hother

theorem reverify_outbox_has {id : DepositId} {db : Db} {event : EventId}
    (hevent : db.outbox.Has event) :
    (reverify adapter settings scope (calls id) head id db).2.outbox.Has event := by
  rcases reverify_cases adapter settings scope (calls id) head id db with
    hraised | ⟨_, hgone⟩ | ⟨d, found, verdict, db', _, _, hreverified, hreturned⟩
  · rwa [hraised]
  · rwa [hgone]
  · rw [hreturned]
    exact hreverified.outbox_has hevent

theorem reverifyAll_other {ids : List DepositId} {db : Db} {id : DepositId}
    (hid : id ∉ ids) :
    (reverifyAll adapter settings scope calls head ids db).2.deposits.find? id =
      db.deposits.find? id :=
  visitAll_other (reverify_ownRow adapter settings scope calls head) hid db

/-- A row on the list of a completed run has its turn. -/
theorem reverifyAll_turn {ids : List DepositId} (hnodup : ids.Nodup) {db : Db}
    (hrun : (reverifyAll adapter settings scope calls head ids db).1 = .completed)
    {id : DepositId} (hid : id ∈ ids) {d : Deposit}
    (hd : db.deposits.find? id = some d) :
    ∃ found before after, locate adapter (calls id) d = .ok found ∧
      Reverified settings scope head before d found after ∧
      before.deposits.find? id = some d ∧
      (reverifyAll adapter settings scope calls head ids db).2.deposits.find? id =
        after.deposits.find? id ∧
      ∀ event, after.outbox.Has event →
        (reverifyAll adapter settings scope calls head ids db).2.outbox.Has event := by
  obtain ⟨before, outcome, rest, hbefore, hvisit, hresult, hrow⟩ :=
    visitAll_turn (reverify_ownRow adapter settings scope calls head) hnodup hrun hid
  rw [hd] at hbefore
  rcases reverify_cases adapter settings scope (calls id) head id before with
    hraised | ⟨hnone, _⟩ | ⟨d', found, verdict, after, hd', hfound, hreverified,
      hreturned⟩
  · rw [hraised] at hvisit
    cases hvisit
  · rw [hbefore] at hnone
    cases hnone
  · rw [hbefore, Option.some.injEq] at hd'
    subst hd'
    rw [hreturned] at hresult hrow
    refine ⟨found, before, after, hfound, hreverified, hbefore, hrow, ?_⟩
    intro event hevent
    unfold reverifyAll
    rw [hresult]
    exact visitAll_preserves (I := fun db : Db => db.outbox.Has event)
      (fun _ _ _ h => reverify_outbox_has h) hevent

end Loop

/-! ## The list -/

theorem mem_watchlist {settings : Settings} {head : Nat} {db : Db} {id : DepositId} :
    id ∈ watchlist settings head db ↔
      ∃ d, db.deposits.find? id = some d ∧ d.watched settings head = true := by
  unfold watchlist
  rw [List.mem_map]
  constructor
  · rintro ⟨d, hd, rfl⟩
    rw [List.mem_insertionSort] at hd
    obtain ⟨hmem, hwatched⟩ := List.mem_filter.mp hd
    exact ⟨d, db.deposits.find?_of_mem hmem, hwatched⟩
  · rintro ⟨d, hd, hwatched⟩
    refine ⟨d, ?_, Table.key_of_find? hd⟩
    rw [List.mem_insertionSort]
    exact List.mem_filter.mpr ⟨Table.mem_of_find? hd, hwatched⟩

theorem watchlist_nodup (settings : Settings) (head : Nat) (db : Db) :
    (watchlist settings head db).Nodup := by
  unfold watchlist
  have hselect : ((db.deposits.select (·.watched settings head)).map
      Deposit.identity).Nodup :=
    db.deposits.nodup.sublist (List.filter_sublist.map _)
  exact ((List.perm_insertionSort _ _).map Deposit.identity).nodup_iff.mpr hselect

/-! ## A whole run -/

section Run

variable {adapter : ChainAdapter σ} {settings : Settings} {scope : Scope} {headCall : σ}
  {calls : DepositId → LookupCalls σ} {db : Db}

theorem watchDepositsOnce_cases (adapter : ChainAdapter σ) (settings : Settings)
    (scope : Scope) (headCall : σ) (calls : DepositId → LookupCalls σ) (db : Db) :
    (watchDepositsOnce adapter settings scope headCall calls db).2 = db ∨
      ∃ head, adapter.getBlockNumber headCall = .ok head ∧ head ≠ 0 ∧
        watchDepositsOnce adapter settings scope headCall calls db =
          reverifyAll adapter settings scope calls head (watchlist settings head db) db := by
  unfold watchDepositsOnce
  cases hhead : adapter.getBlockNumber headCall with
  | error e =>
      left
      cases e <;> rfl
  | ok head =>
      by_cases hzero : head = 0
      · left
        simp [hzero]
      · right
        refine ⟨head, rfl, hzero, ?_⟩
        simp only [hzero, if_false]

/-- A row the run promoted was on its list, and its log was found deep enough. -/
theorem watchDepositsOnce_promotes {id : DepositId} {d d' : Deposit}
    (hd : db.deposits.find? id = some d) (hopen : d.status ≠ .confirmed)
    (hd' : (watchDepositsOnce adapter settings scope headCall calls db).2.deposits.find? id =
      some d') (hconfirmed : d'.status = .confirmed) :
    ∃ head number hash, adapter.getBlockNumber headCall = .ok head ∧ head ≠ 0 ∧
      id ∈ watchlist settings head db ∧
      locate adapter (calls id) d = .ok (some (number, hash)) ∧
      d.ripe settings head number ∧
      d' = (d.movedTo head number hash).confirmedAtTime scope.now := by
  have hsame : d' ≠ d := fun heq => hopen (heq ▸ hconfirmed)
  rcases watchDepositsOnce_cases adapter settings scope headCall calls db with
    hunchanged | ⟨head, hhead, hpositive, hresult⟩
  · rw [hunchanged, hd, Option.some.injEq] at hd'
    exact (hsame hd'.symm).elim
  rw [hresult] at hd'
  rcases visitAll_row_cases (reverify_ownRow adapter settings scope calls head)
      (watchlist_nodup settings head db) db id with hkept | ⟨hlist, before, hbefore, hrow⟩
  · have hkept' := hkept.symm.trans hd'
    rw [hd, Option.some.injEq] at hkept'
    exact (hsame hkept'.symm).elim
  have hstart := hbefore.trans hd
  have hfinal := hrow.symm.trans hd'
  rcases reverify_cases adapter settings scope (calls id) head id before with
    hraised | ⟨_, hgone⟩ | ⟨row, found, verdict, after, hstart', hfound, hreverified,
      hreturned⟩
  · rw [hraised, hstart, Option.some.injEq] at hfinal
    exact (hsame hfinal.symm).elim
  · rw [hgone, hstart, Option.some.injEq] at hfinal
    exact (hsame hfinal.symm).elim
  · rw [hreturned] at hfinal
    cases hstart.symm.trans hstart'
    have hkey := Table.key_of_find? hd
    subst hkey
    obtain ⟨number, hash, rfl, hripe, rfl⟩ :=
      hreverified.confirms hstart hopen hfinal hconfirmed
    exact ⟨head, number, hash, hhead, hpositive, hlist, hfound, hripe, rfl⟩

end Run

/-! ## Which deposits are confirmed -/

def confirmedEventId (id : DepositId) (blockHash : ChainHash) : EventId :=
  .uuid5 (EventType.depositConfirmed.name ++ "|" ++ DepositId.inBlock id blockHash)

theorem DepositId.inBlock_ne_empty (id : DepositId) (blockHash : ChainHash) :
    DepositId.inBlock id blockHash ≠ "" := by
  intro hempty
  have hlist := congrArg String.toList hempty
  rw [DepositId.inBlock_toList] at hlist
  simp at hlist

theorem confirmedEvent_eventId (scope : Scope) (d : Deposit) (payload : Payload) :
    (confirmedEvent scope d payload).eventId = confirmedEventId d.identity d.blockHash := by
  simp [confirmedEvent, depositEvent, newEvent, DepositId.inBlock_ne_empty,
    confirmedEventId]

/-- The row is confirmed and its event enqueued. -/
def Db.Confirmed (db : Db) (id : DepositId) : Prop :=
  ∃ d, db.deposits.find? id = some d ∧ d.status = .confirmed ∧
    db.outbox.Has (confirmedEventId id d.blockHash)

instance (db : Db) (id : DepositId) : Decidable (db.Confirmed id) :=
  match h : db.deposits.find? id with
  | none => .isFalse fun ⟨d, hd, _⟩ => by simp [h] at hd
  | some d =>
    if hc : d.status = .confirmed ∧ db.outbox.Has (confirmedEventId id d.blockHash) then
      .isTrue ⟨d, h, hc⟩
    else .isFalse fun ⟨d', hd', hc'⟩ => by
      rw [h, Option.some.injEq] at hd'
      exact hc (hd' ▸ hc')

/-- The log of the deposit is in the canonical chain under the block of the row. -/
def Deposit.CanonicalIn (d : Deposit) (logs : List TransferLog) : Prop :=
  ∃ entry ∈ logs, entry.txHash = d.txHash ∧ entry.logIndex = d.logIndex ∧
    entry.blockNumber = d.blockNumber ∧ entry.blockHash = d.blockHash

instance (d : Deposit) (logs : List TransferLog) : Decidable (d.CanonicalIn logs) :=
  inferInstanceAs (Decidable (∃ entry ∈ logs, _))

/-- A watcher which sees one fixed chain finds an unmoved log where it was. -/
theorem locate_unmoved {adapter : ChainAdapter σ} {letterCase : LetterCase} {chain : σ}
    {view : ChainView} (hshows : Shows adapter letterCase chain view) {d : Deposit}
    (hlog : d.CanonicalIn view.logs) :
    locate adapter (.fixed chain) d = .ok (some (d.blockNumber, d.blockHash)) := by
  obtain ⟨entry, hentry, htx, _, hnumber, hhash⟩ := hlog
  have hreceipt := view.log_receipt entry hentry
  rw [htx] at hreceipt
  simp [locate, LookupCalls.fixed, hshows.receipt, hreceipt, hhash, hnumber, bind,
    Except.bind, pure, Except.pure]

/-- A detected deposit which is deep enough is confirmed by a completed run if
and only if it is not yet as deep as the finality depth. -/
theorem confirmed_iff_within_finality {adapter : ChainAdapter σ} {letterCase : LetterCase}
    {chain : σ} {view : ChainView} (hshows : Shows adapter letterCase chain view)
    {settings : Settings} {scope : Scope} {db : Db} {d : Deposit}
    (hd : db.deposits.find? d.identity = some d) (hdetected : d.status = .detected)
    (hlog : d.CanonicalIn view.logs)
    (hdeep : settings.confirmationsRequired ≤ view.head + 1 - d.blockNumber)
    (hrun : (watchDepositsOnce adapter settings scope chain (fun _ => .fixed chain)
      db).1 = .completed) :
    (watchDepositsOnce adapter settings scope chain (fun _ => .fixed chain)
        db).2.Confirmed d.identity ↔
      0 < view.head ∧ view.head < d.blockNumber + settings.finalityDepth := by
  have hwatched : d.identity ∈ watchlist settings view.head db ↔
      view.head < d.blockNumber + settings.finalityDepth := by
    rw [mem_watchlist]
    simp [hd, Deposit.watched, hdetected]
  have hnot : ¬∃ d', db.deposits.find? d.identity = some d' ∧ d'.status = .confirmed := by
    simp [hd, hdetected]
  unfold watchDepositsOnce at hrun ⊢
  simp only [hshows.head] at hrun ⊢
  by_cases hzero : view.head = 0
  · simp only [hzero, if_true]
    refine iff_of_false ?_ (by omega)
    rintro ⟨d', hd', hconfirmed, _⟩
    exact hnot ⟨d', hd', hconfirmed⟩
  · simp only [hzero, if_false] at hrun ⊢
    by_cases hlist : d.identity ∈ watchlist settings view.head db
    · refine iff_of_true ?_ ⟨by omega, hwatched.mp hlist⟩
      obtain ⟨found, before, after, hfound, hreverified, hbefore, hrow, houtbox⟩ :=
        reverifyAll_turn (watchlist_nodup settings view.head db) hrun hlist hd
      rw [locate_unmoved hshows hlog, Except.ok.injEq] at hfound
      subst hfound
      have hripe : d.ripe settings view.head d.blockNumber := ⟨hdetected, hdeep⟩
      cases hreverified with
      | confirmed blockNumber blockHash _ payload hpayload outbox henqueued =>
          refine ⟨_, hrow.trans (Table.find?_replace_of_key _ rfl hbefore), rfl, ?_⟩
          apply houtbox
          have hhas := (enqueueEvent_has henqueued).1
          rw [confirmedEvent_eventId] at hhas
          exact hhas
      | moved blockNumber blockHash hunripe => exact (hunripe hripe).elim
    · refine iff_of_false ?_ fun h => hlist (hwatched.mpr h.2)
      rintro ⟨d', hd', hconfirmed, _⟩
      rw [reverifyAll_other hlist] at hd'
      exact hnot ⟨d', hd', hconfirmed⟩

/-! ### A deposit the scanner finds late -/

def custodyAddress : Address where
  ownerRef := ⟨"user-1", by decide, by decide⟩
  network := MockChain.Config.bsc.network
  address := ⟨"0x5aAeb6053F3E94C9b9A09f33669435E7Ef1BeAed", by decide, by decide⟩
  status := .active

def Db.custody : Db := { Db.empty with addresses := ⟨[custodyAddress], by simp⟩ }

def someScope : Scope := ⟨1000, none, "correlation", 0⟩

/-- A deposit is mined in block 2, under a number of blocks. -/
def depositSteps (above : Nat) : List MockChain.ChainStep :=
  [.ensureStarted, .simulateDeposit custodyAddress.address.val 500 "deposit-1"] ++
    (List.range (above + 1)).map fun n => .mineBlock (someUuid n)

@[irreducible] def depositChain (above : Nat) : MockChain.State :=
  runSteps (MockChain.chainStep .bsc) .empty (depositSteps above)

theorem depositChain_reachable (above : Nat) :
    MockChain.Reachable .bsc (depositChain above) := by
  unfold depositChain
  exact ⟨depositSteps above, rfl⟩

/-- The scanner runs for the first time when the chain is that long. -/
@[irreducible] def scannedDb (above : Nat) : Db :=
  (scanOnce (MockChain.adapter .bsc) .standard someScope (fun _ => someUuid 100)
    (.fixed (depositChain above)) .custody).2

/-- The state in which a deposit waits for its confirmation. -/
def Awaiting (above : Nat) (d : Deposit) : Prop :=
  (scannedDb above).deposits.find? d.identity = some d ∧ d.status = .detected ∧
    d.CanonicalIn (MockChain.logsUpTo .bsc (depositChain above)
      (MockChain.headNumber (depositChain above))) ∧
    Settings.standard.confirmationsRequired ≤
      MockChain.headNumber (depositChain above) + 1 - d.blockNumber

instance (above : Nat) (d : Deposit) : Decidable (Awaiting above d) :=
  inferInstanceAs (Decidable (_ ∧ _))

def watchedDb (above : Nat) : RunEnd × Db :=
  watchDepositsOnce (MockChain.adapter .bsc) .standard someScope (depositChain above)
    (fun _ => .fixed (depositChain above)) (scannedDb above)

/-- With 15 blocks above it the deposit is not on the list any more. -/
theorem late_deposit_stranded :
    ∃ d ∈ (scannedDb 15).deposits.rows, Awaiting 15 d ∧ (watchedDb 15).1 = .completed ∧
      ¬(watchedDb 15).2.Confirmed d.identity := by
  decide +kernel

theorem prompt_deposit :
    ∃ d ∈ (scannedDb 2).deposits.rows, Awaiting 2 d ∧ (watchedDb 2).1 = .completed := by
  decide +kernel

theorem prompt_deposit_confirmed_iff :
    ∃ d ∈ (scannedDb 2).deposits.rows, ((watchedDb 2).2.Confirmed d.identity ↔
      0 < MockChain.headNumber (depositChain 2) ∧
        MockChain.headNumber (depositChain 2) <
          d.blockNumber + Settings.standard.finalityDepth) := by
  obtain ⟨d, hmem, ⟨hd, hdetected, hlog, hdeep⟩, hrun⟩ := prompt_deposit
  have hs := (depositChain_reachable 2).consistent
  have hup : MockChain.assertRpcUp (depositChain 2) = .ok () := by decide +kernel
  exact ⟨d, hmem, confirmed_iff_within_finality (MockChain.shows_view .bsc hs hup) hd
    hdetected hlog hdeep hrun⟩

end CryptoWallet.Blockchain
