import CryptoWallet.WatcherRuns

/-!
# Reorgs at the edge of the finality window

Both watchers leave out a row whose block is not above `head - finality_depth`.  The head
they compare with is the one of the new fork, which is one block longer: so a reorg as
deep as the window orphans one block more than the watchers look at.
-/

namespace CryptoWallet.Blockchain

open Tx
open MockChain (MockBlock headNumber receiptOf)

variable {σ : Type}

/-- The event is new in the outbox. -/
def Db.Enqueued (db db' : Db) (envelope : Envelope) : Prop :=
  ¬db.outbox.Has envelope.eventId ∧ envelope ∈ db'.outbox.envelopes

/-! ## A deposit which disappeared -/

/-- The deposit is marked, and the wallet told that it had been confirmed. -/
def DepositReversed (db db' : Db) (d : Deposit) : Prop :=
  (∃ d', db'.deposits.find? d.identity = some d' ∧ d'.status = .reorged) ∧
    ∃ envelope, db.Enqueued db' envelope ∧
      envelope.eventId = reorgedEventId d.identity d.blockHash ∧
      envelope.eventType = .depositReorged ∧
      envelope.payload.get? "deposit_id" = some (.str d.id.str) ∧
      envelope.payload.get? "was_confirmed" = some (.bool true)

section Deposits

variable {adapter : ChainAdapter σ} {settings : Settings} {scope : Scope} {head : Nat}
  {db : Db}

theorem Reverified.grows {d : Deposit} {found : Option (Nat × ChainHash)} {db' : Db}
    (h : Reverified settings scope head db d found db') : db.outbox.Grows db'.outbox := by
  cases h with
  | reorged payload hpayload outbox houtbox => exact enqueueEvent_grows houtbox
  | confirmed blockNumber blockHash hripe payload hpayload outbox houtbox =>
      exact enqueueEvent_grows houtbox
  | moved blockNumber blockHash hripe => exact .refl db.outbox

theorem reverify_grows (calls : LookupCalls σ) (id : DepositId) (db : Db) :
    db.outbox.Grows (reverify adapter settings scope calls head id db).2.outbox := by
  rcases reverify_cases adapter settings scope calls head id db with
    hraised | ⟨_, hgone⟩ | ⟨d, found, verdict, db', _, _, hreverified, hreturned⟩
  · rw [hraised]
    exact .refl db.outbox
  · rw [hgone]
    exact .refl db.outbox
  · rw [hreturned]
    exact hreverified.grows

/-- The row of a deposit, and whether it was announced to have left its block. -/
def reorgNews (blockHash : ChainHash) (id : DepositId) (db : Db) : Option Deposit × Bool :=
  (db.deposits.find? id, decide (db.outbox.Has (reorgedEventId id blockHash)))

theorem reverify_reorgNews (calls : DepositId → LookupCalls σ) (blockHash : ChainHash) :
    OwnRow (fun id => reverify adapter settings scope (calls id) head id)
      (reorgNews blockHash) := by
  intro key other db hother
  have hrow := reverify_ownRow adapter settings scope calls head key other db hother
  refine Prod.ext hrow ?_
  simp only [reorgNews, decide_eq_decide]
  constructor
  · exact reverify_has_other hother ⟨blockHash, Or.inr rfl⟩
  · exact (reverify_grows (calls key) key db).has

/-- The watcher finds nothing where the node has no receipt. -/
theorem locate_gone {letterCase : LetterCase} {chain : σ} {view : ChainView}
    (hshows : Shows adapter letterCase chain view) {d : Deposit}
    (hgone : view.receiptOf d.txHash = none) :
    locate adapter (.fixed chain) d = .ok none := by
  simp [locate, LookupCalls.fixed, hshows.receipt, hgone, bind, Except.bind, pure, Except.pure]

theorem reorgedPayload_get? {d : Deposit} {confirmations : Nat} {payload : Payload}
    (h : depositPayload d confirmations = .ok payload) (wasConfirmed : Bool)
    (blockHash : ChainHash) :
    (reorgedPayload payload wasConfirmed blockHash).get? "deposit_id" =
        some (.str d.id.str) ∧
      (reorgedPayload payload wasConfirmed blockHash).get? "was_confirmed" =
        some (.bool wasConfirmed) := by
  unfold depositPayload at h
  split at h
  · cases h
  · cases h
    exact ⟨rfl, rfl⟩

/-- The visit of a confirmed deposit which is gone reverses it. -/
theorem Reverified.reverses {db' : Db} {d : Deposit}
    (h : Reverified settings scope head db d none db')
    (hd : db.deposits.find? d.identity = some d) (hconfirmed : d.status = .confirmed)
    (hfresh : ¬db.outbox.Has (reorgedEventId d.identity d.blockHash)) :
    DepositReversed db db' d := by
  cases h with
  | reorged payload hpayload outbox houtbox =>
      have hfind : (db.deposits.replace (d.reorgedAtTime scope.now)).find? d.identity =
          some (d.reorgedAtTime scope.now) := Table.find?_replace_of_key _ rfl hd
      have hid := reorgedEvent_eventId scope d payload
      have hnew : ¬db.outbox.Has (reorgedEvent scope d payload).eventId := by
        rw [hid]
        exact hfresh
      refine ⟨⟨_, hfind, rfl⟩, reorgedEvent scope d payload, ⟨hnew, ?_⟩, hid, rfl, ?_⟩
      · rcases enqueueEvent_cases houtbox with ⟨htaken, _⟩ | ⟨_, hrows⟩
        · exact (hnew htaken).elim
        · rw [hrows]
          simp
      · have hboth := reorgedPayload_get? hpayload (d.status = .confirmed) d.blockHash
        have hwas : decide (d.status = .confirmed) = true := decide_eq_true hconfirmed
        exact ⟨hboth.1, hboth.2.trans (by rw [hwas])⟩

/-- A run of the watcher reverses a confirmed deposit which is gone, if and only if it is
still within the window and no earlier run has reversed it in that block. -/
theorem watchDepositsOnce_reverses_iff {letterCase : LetterCase} {chain : σ}
    {view : ChainView} (hshows : Shows adapter letterCase chain view) (hhead : view.head ≠ 0)
    (settings : Settings) (scope : Scope) (hassets : db.AssetsKnown) {d : Deposit}
    (hd : db.deposits.find? d.identity = some d) (hconfirmed : d.status = .confirmed)
    (hgone : view.receiptOf d.txHash = none) :
    DepositReversed db
        (watchDepositsOnce adapter settings scope chain (fun _ => .fixed chain) db).2 d ↔
      view.head < d.blockNumber + settings.finalityDepth ∧
        ¬db.outbox.Has (reorgedEventId d.identity d.blockHash) := by
  have hrun := watchDepositsOnce_completes hshows settings scope hassets
  have hresult : watchDepositsOnce adapter settings scope chain (fun _ => .fixed chain) db =
      reverifyAll adapter settings scope (fun _ => .fixed chain) view.head
        (watchlist settings view.head db) db := by
    simp only [watchDepositsOnce, hshows.head, if_neg hhead]
  have hwatched : d.identity ∈ watchlist settings view.head db ↔
      view.head < d.blockNumber + settings.finalityDepth := by
    rw [mem_watchlist]
    simp [hd, Deposit.watched, hconfirmed]
  rw [hresult] at hrun ⊢
  constructor
  · rintro ⟨⟨d', hd', hreorged⟩, envelope, ⟨hnew, _⟩, hid, _⟩
    refine ⟨?_, hid ▸ hnew⟩
    rw [← hwatched]
    by_contra hlist
    rw [reverifyAll_other hlist, hd, Option.some.injEq] at hd'
    rw [← hd', hconfirmed] at hreorged
    cases hreorged
  · rintro ⟨hwindow, hfresh⟩
    obtain ⟨before, outcome, rest, hbefore, hvisit, hrest, hrow⟩ :=
      visitAll_turn (reverify_reorgNews (fun _ => .fixed chain) d.blockHash)
        (watchlist_nodup settings view.head db) hrun (hwatched.mpr hwindow)
    simp only [reorgNews, Prod.mk.injEq, decide_eq_decide] at hbefore
    have hd' := hbefore.1.trans hd
    rcases reverify_cases adapter settings scope (.fixed chain) view.head d.identity before
      with hraised | ⟨hnone, _⟩ | ⟨d', found, verdict, after, hfind, hfound, hreverified,
        hreturned⟩
    · rw [hraised] at hvisit
      cases hvisit
    · rw [hd'] at hnone
      cases hnone
    · rw [hd', Option.some.injEq] at hfind
      subst hfind
      rw [locate_gone hshows hgone, Except.ok.injEq] at hfound
      subst hfound
      have hreversed := hreverified.reverses hd' hconfirmed
        fun hhas => hfresh (hbefore.2.mp hhas)
      obtain ⟨hmarked, envelope, ⟨_, hmem⟩, hid, hevent⟩ := hreversed
      simp only [reorgNews, hreturned, Prod.mk.injEq] at hrow
      refine ⟨?_, envelope, ⟨?_, ?_⟩, hid, hevent⟩
      · unfold reverifyAll
        rw [hrow.1]
        exact hmarked
      · rw [hid]
        exact hfresh
      · have hgrows : after.outbox.Grows (visitAll (fun id => reverify adapter settings
            scope (.fixed chain) view.head id) rest after).2.outbox := by
          apply visitAll_preserves (I := fun db' : Db => after.outbox.Grows db'.outbox)
          · intro id _ db' hdb'
            exact hdb'.trans (reverify_grows (.fixed chain) id db')
          · exact .refl after.outbox
        unfold reverifyAll
        rw [hrest, hreturned]
        exact hgrows.subset hmem

end Deposits

/-! ## A transfer which disappeared -/

/-- The key of the failure of a confirmed record which is gone. -/
def lostKey (record : OutgoingTransaction) : String :=
  failureKey record "CHAIN_REORG" ++ ":" ++
    match record.blockHash with
    | none => "None"
    | some hash => hash.val

def lostEventId (record : OutgoingTransaction) : EventId :=
  .uuid5 (EventType.txFailed.name ++ "|" ++ lostKey record)

/-- The record is marked, and the wallet told that the transfer was lost. -/
def TransferReversed (db db' : Db) (record : OutgoingTransaction) : Prop :=
  (∃ record', db'.outgoing.find? record.transferId = some record' ∧
      record'.status = .reorged) ∧
    ∃ envelope, db.Enqueued db' envelope ∧ envelope.eventId = lostEventId record ∧
      envelope.eventType = .txFailed ∧
      envelope.payload.get? "transfer_id" = some (.str record.transferId.str) ∧
      envelope.payload.get? "code" = some (.str "CHAIN_REORG") ∧
      envelope.payload.get? "was_confirmed" = some (.bool true)

/-- An event of the watcher about the transfer. -/
def EventOf (transferId : Uuid) (event : EventId) : Prop :=
  ∃ eventType rest, (eventType = .txFailed ∨ eventType = .txConfirmed) ∧
    event = .uuid5 (EventType.name eventType ++ "|" ++ (transferId.str ++ ":" ++ rest))

theorem lostEventId_eventOf (record : OutgoingTransaction) :
    EventOf record.transferId (lostEventId record) := by
  refine ⟨.txFailed, "CHAIN_REORG" ++ ":" ++ (match record.blockHash with
    | none => "None"
    | some hash => hash.val), Or.inl rfl, ?_⟩
  simp only [lostEventId, lostKey, failureKey, String.append_assoc]

theorem EventOf.same {transferId transferId' : Uuid} {event : EventId}
    (h : EventOf transferId event) (h' : EventOf transferId' event) :
    transferId = transferId' := by
  obtain ⟨eventType, rest, htype, rfl⟩ := h
  obtain ⟨eventType', rest', htype', heq⟩ := h'
  simp only [EventId.uuid5.injEq] at heq
  have hlist := congrArg String.toList heq
  simp only [String.toList_append] at hlist
  have hids : transferId.str.toList ++ (":".toList ++ rest.toList) =
      transferId'.str.toList ++ (":".toList ++ rest'.toList) := by
    rcases htype with rfl | rfl
    · rcases htype' with rfl | rfl
      · simpa [EventType.name] using hlist
      · simp [EventType.name] at hlist
    · rcases htype' with rfl | rfl
      · simp [EventType.name] at hlist
      · simpa [EventType.name] using hlist
  have hlength : transferId.str.toList.length = transferId'.str.toList.length := by
    rw [String.length_toList, String.length_toList, Uuid.str_length, Uuid.str_length]
  exact Uuid.str_injective (String.toList_inj.mp (List.append_inj_left hids hlength))

section Outgoing

variable {adapter : ChainAdapter σ} {settings : Settings} {scope : Scope} {head : Nat}
  {db : Db}

/-- Every event of the outbox was there before or is about the transfer. -/
def AddsFor (transferId : Uuid) (outbox outbox' : Outbox) : Prop :=
  ∀ event, outbox'.Has event → outbox.Has event ∨ EventOf transferId event

theorem enqueue_addsFor {transferId : Uuid} (scope : Scope) {eventType : EventType}
    (htype : eventType = .txFailed ∨ eventType = .txConfirmed) (payload : Payload)
    (rest : String) (correlationId : Option String) (db : Db) :
    Ensures (enqueue (newEvent scope eventType payload producer
      (some (transferId.str ++ ":" ++ rest)) correlationId)) db
      (fun _ db' => AddsFor transferId db.outbox db'.outbox) fun _ => True := by
  apply (enqueue_ensures _ db).mono
  · rintro _ db' ⟨outbox, houtbox, rfl⟩ event hhas
    rcases enqueueEvent_has_cases houtbox hhas with hold | hnew
    · exact Or.inl hold
    · right
      refine ⟨eventType, rest, htype, hnew.trans ?_⟩
      simp [newEvent]
  · exact fun _ h => h

theorem announceFailure_addsFor (scope : Scope) (record : OutgoingTransaction)
    (wasConfirmed : Bool) (reason code rest : String) (db : Db) :
    Ensures (announceFailure scope record wasConfirmed reason code
      (record.transferId.str ++ ":" ++ rest)) db
      (fun _ db' => AddsFor record.transferId db.outbox db'.outbox) fun _ => True := by
  unfold announceFailure
  apply Ensures.orRaise_bind ?_ (fun _ _ => trivial)
  intro payload _
  apply Ensures.orRaise_bind ?_ (fun _ _ => trivial)
  intro _ _
  apply Ensures.modifyDb_bind
  exact enqueue_addsFor scope (Or.inl rfl) payload rest _ _

theorem checkTx_addsFor (transferId : Uuid) (seen : SeenRecord)
    (receipt : Option TxReceipt) (db : Db) :
    Ensures (checkTx settings scope head transferId seen receipt) db
      (fun _ db' => AddsFor transferId db.outbox db'.outbox) fun _ => True := by
  have hrefl : AddsFor transferId db.outbox db.outbox := fun _ h => Or.inl h
  unfold checkTx
  apply Ensures.query_bind
  cases hfind : db.outgoing.find? transferId with
  | none => exact Ensures.pure hrefl
  | some record =>
      obtain rfl := Table.key_of_find? hfind
      cases receipt with
      | some receipt =>
          unfold handleReceipt
          dsimp only
          split
          · split
            · apply Ensures.modifyDb_bind
              exact Ensures.pure hrefl
            · apply Ensures.bind (announceFailure_addsFor _
                ((record.minedIn head receipt).failedFor revertReason) false revertReason
                "REVERTED_ON_CHAIN" "REVERTED_ON_CHAIN" db)
              intro _ _ hadds
              exact Ensures.pure hadds
          · split
            · apply Ensures.orRaise_bind ?_ (fun _ _ => trivial)
              intro payload _
              apply Ensures.modifyDb_bind
              have hkey : record.transferId.str ++ ":" ++ seen.txHash.val ++ ":confirmed" =
                  record.transferId.str ++ ":" ++ (seen.txHash.val ++ ":confirmed") := by
                simp only [String.append_assoc]
              rw [hkey]
              apply Ensures.bind (enqueue_addsFor _ (Or.inr rfl) payload _ _ _)
              intro _ _ hadds
              exact Ensures.pure hadds
            · apply Ensures.modifyDb_bind
              exact Ensures.pure hrefl
      | none =>
          dsimp only
          split
          · unfold markOutgoingReorged
            dsimp only
            have hkey : ∀ text, failureKey record "CHAIN_REORG" ++ ":" ++ text =
                record.transferId.str ++ ":" ++ ("CHAIN_REORG" ++ ":" ++ text) := by
              intro text
              simp only [failureKey, String.append_assoc]
            rw [hkey]
            apply Ensures.bind (announceFailure_addsFor _ record.reorged true reorgReason
              "CHAIN_REORG" _ db)
            intro _ _ hadds
            exact Ensures.pure hadds
          · unfold handleStuck
            cases seen.broadcastAt with
            | none => exact Ensures.pure hrefl
            | some broadcastAt =>
                dsimp only
                split
                · exact Ensures.pure hrefl
                · split
                  · apply Ensures.modifyDb_bind
                    exact Ensures.pure hrefl
                  · apply Ensures.bind (announceFailure_addsFor _ (record.failedFor _) false
                      _ "STUCK_PENDING" "STUCK_PENDING" db)
                    intro _ _ hadds
                    exact Ensures.pure hadds

theorem checkOne_addsFor (receiptCall : σ) (transferId : Uuid) (db : Db) :
    AddsFor transferId db.outbox
      (checkOne adapter settings scope receiptCall head transferId db).2.outbox := by
  have hrefl : AddsFor transferId db.outbox db.outbox := fun _ h => Or.inl h
  unfold checkOne
  split
  next => exact hrefl
  next seen _ =>
    split
    next => exact hrefl
    next receipt _ =>
      have hadds : Ensures (checkTx settings scope head transferId seen receipt) db
          (fun _ db' => AddsFor transferId db.outbox db'.outbox) fun _ => True :=
        checkTx_addsFor transferId seen receipt db
      exact commit_preserves (I := fun db' : Db => AddsFor transferId db.outbox db'.outbox)
        hrefl hadds

theorem checkOne_grows (receiptCall : σ) (transferId : Uuid) (db : Db) :
    db.outbox.Grows
      (checkOne adapter settings scope receiptCall head transferId db).2.outbox := by
  rcases checkOne_cases adapter settings scope receiptCall head transferId db with
    hraised | ⟨_, hskipped⟩ | ⟨_, _, _, _, _, _, _, _, hchecked, hreturned⟩
  · rw [hraised]
    exact .refl db.outbox
  · rw [hskipped]
    exact .refl db.outbox
  · rw [hreturned]
    exact hchecked.apart.outbox.grows

/-- A record, and whether its event is in the outbox. -/
def lostNews (event : Uuid → EventId) (transferId : Uuid) (db : Db) :
    Option OutgoingTransaction × Bool :=
  (db.outgoing.find? transferId, decide (db.outbox.Has (event transferId)))

theorem checkOne_lostNews (calls : Uuid → σ) {event : Uuid → EventId}
    (hevent : ∀ transferId, EventOf transferId (event transferId)) :
    OwnRow (fun id => checkOne adapter settings scope (calls id) head id)
      (lostNews event) := by
  intro key other db hother
  have hrow := checkOne_ownRow adapter settings scope calls head key other db hother
  refine Prod.ext hrow ?_
  simp only [lostNews, decide_eq_decide]
  constructor
  · intro hhas
    rcases checkOne_addsFor (calls key) key db _ hhas with hold | hkey
    · exact hold
    · exact (hother ((hevent other).same hkey)).elim
  · exact (checkOne_grows (calls key) key db).has

theorem checkTx_reverses {record : OutgoingTransaction}
    (hrecord : db.outgoing.find? record.transferId = some record) {seen : SeenRecord}
    (hseen : seen.status = .confirmed) :
    Ensures (checkTx settings scope head record.transferId seen none) db
      (fun _ db' => ∃ payload,
        failurePayload record.reorged true reorgReason "CHAIN_REORG" = .ok payload ∧
        db.Announces record.reorged
          (failedEvent (correlationScope scope (record.correlationId.map Subtype.val))
            record.reorged payload (lostKey record)) db') fun _ => True := by
  unfold checkTx
  apply Ensures.query_bind
  rw [hrecord]
  dsimp only
  rw [if_pos hseen]
  unfold markOutgoingReorged
  apply Ensures.bind (announceFailure_ensures _ record.reorged true reorgReason
    "CHAIN_REORG" _ db)
  rintro _ db' ⟨payload, hpayload, hannounces⟩
  exact Ensures.pure ⟨payload, hpayload, hannounces⟩

theorem failurePayload_get? {record : OutgoingTransaction} {wasConfirmed : Bool}
    {reason code : String} {payload : Payload}
    (h : failurePayload record wasConfirmed reason code = .ok payload) :
    payload.get? "transfer_id" = some (.str record.transferId.str) ∧
      payload.get? "code" = some (.str code) ∧
      payload.get? "was_confirmed" = some (.bool wasConfirmed) := by
  unfold failurePayload at h
  split at h
  · cases h
  · cases h
    exact ⟨rfl, rfl, rfl⟩

theorem reverses_of_announces {db' : Db} {record : OutgoingTransaction}
    (hrecord : db.outgoing.find? record.transferId = some record)
    (hfresh : ¬db.outbox.Has (lostEventId record)) {bound : Scope} {payload : Payload}
    (hpayload : failurePayload record.reorged true reorgReason "CHAIN_REORG" = .ok payload)
    (hannounces : db.Announces record.reorged
      (failedEvent bound record.reorged payload (lostKey record)) db') :
    TransferReversed db db' record := by
  obtain ⟨outbox, houtbox, rfl⟩ := hannounces
  have hfind : (db.outgoing.replace record.reorged).find? record.transferId =
      some record.reorged := Table.find?_replace_of_key _ rfl hrecord
  have hid : (failedEvent bound record.reorged payload (lostKey record)).eventId =
      lostEventId record := by
    have hkey : lostKey record ≠ "" := by
      intro hempty
      have hlist := congrArg String.toList hempty
      simp [lostKey, failureKey] at hlist
    simp [failedEvent, newEvent, hkey, lostEventId]
  refine ⟨⟨_, hfind, rfl⟩, _, ⟨?_, ?_⟩, hid, rfl, failurePayload_get? hpayload⟩
  · rw [hid]
    exact hfresh
  · rcases enqueueEvent_cases houtbox with ⟨htaken, _⟩ | ⟨_, hrows⟩
    · exact (hfresh (hid ▸ htaken)).elim
    · rw [hrows]
      simp

/-- A run of the watcher reverses a confirmed transfer which is gone, if and only if it is
still within the window and no earlier run has reversed it in that block. -/
theorem watchOutgoingOnce_reverses_iff {letterCase : LetterCase} {chain : σ}
    {view : ChainView} (hshows : Shows adapter letterCase chain view)
    (settings : Settings) (hscope : scope.Generated) (hassets : db.AssetsKnown)
    {record : OutgoingTransaction}
    (hrecord : db.outgoing.find? record.transferId = some record)
    (hconfirmed : record.status = .confirmed) {txHash : ChainHash}
    (htx : record.txHash = some txHash) {number : Nat}
    (hnumber : record.blockNumber = some number) (hgone : view.receiptOf txHash = none) :
    TransferReversed db
        (watchOutgoingOnce adapter settings scope chain (fun _ => chain) db).2 record ↔
      view.head < number + settings.finalityDepth ∧ ¬db.outbox.Has (lostEventId record) := by
  have hrun := watchOutgoingOnce_completes hshows settings hscope hassets
  have hresult : watchOutgoingOnce adapter settings scope chain (fun _ => chain) db =
      checkAll adapter settings scope (fun _ => chain) view.head
        (candidates settings view.head db) db := by
    simp only [watchOutgoingOnce, hshows.head]
  have hlisted : record.transferId ∈ candidates settings view.head db ↔
      view.head < number + settings.finalityDepth := by
    rw [mem_candidates]
    simp [hrecord, OutgoingTransaction.candidate, hconfirmed, hnumber]
  rw [hresult] at hrun ⊢
  constructor
  · rintro ⟨⟨record', hrecord', hreorged⟩, envelope, ⟨hnew, _⟩, hid, _⟩
    refine ⟨?_, hid ▸ hnew⟩
    rw [← hlisted]
    by_contra hlist
    have hsame : (checkAll adapter settings scope (fun _ => chain) view.head
        (candidates settings view.head db) db).2.outgoing.find? record.transferId =
          db.outgoing.find? record.transferId :=
      visitAll_other (checkOne_ownRow adapter settings scope (fun _ => chain) view.head)
        hlist db
    rw [hsame, hrecord, Option.some.injEq] at hrecord'
    rw [← hrecord', hconfirmed] at hreorged
    cases hreorged
  · rintro ⟨hwindow, hfresh⟩
    let event : Uuid → EventId := fun id => lostEventId { record with transferId := id }
    have hevent : ∀ id, EventOf id (event id) :=
      fun id => lostEventId_eventOf { record with transferId := id }
    obtain ⟨before, outcome, rest, hbefore, hvisit, hrest, hrow⟩ :=
      visitAll_turn (checkOne_lostNews (fun _ => chain) hevent)
        (candidates_nodup settings view.head db) hrun (hlisted.mpr hwindow)
    simp only [lostNews, Prod.mk.injEq, decide_eq_decide] at hbefore
    have hrecord' := hbefore.1.trans hrecord
    have hseen : (before.outgoing.find? record.transferId).bind OutgoingTransaction.seen =
        some ⟨txHash, record.status, record.broadcastAt, record.attempts⟩ := by
      simp [hrecord', OutgoingTransaction.seen, htx]
    have hvisited : ∃ after, (checkOne adapter settings scope chain view.head
          record.transferId before).2 = after ∧ TransferReversed before after record := by
      refine ⟨_, rfl, ?_⟩
      unfold checkOne at hvisit ⊢
      simp only [hseen, hshows.receipt, hgone] at hvisit ⊢
      cases hcommit : commit (checkTx settings scope view.head record.transferId
          ⟨txHash, record.status, record.broadcastAt, record.attempts⟩ none) before with
      | mk result after =>
          cases result with
          | error e =>
              rw [hcommit] at hvisit
              cases hvisit
          | ok outcome =>
              obtain ⟨payload, hpayload, hannounces⟩ :=
                (checkTx_reverses hrecord' hconfirmed).commit_ok hcommit
              exact reverses_of_announces hrecord' (fun hhas => hfresh (hbefore.2.mp hhas))
                hpayload hannounces
    obtain ⟨after, hafter, hmarked, envelope, ⟨_, hmem⟩, hid, hevent⟩ := hvisited
    simp only [lostNews, hafter, Prod.mk.injEq] at hrow
    refine ⟨?_, envelope, ⟨?_, ?_⟩, hid, hevent⟩
    · unfold checkAll
      rw [hrow.1]
      exact hmarked
    · rw [hid]
      exact hfresh
    · have hgrows : after.outbox.Grows (visitAll (fun id => checkOne adapter settings
          scope chain view.head id) rest after).2.outbox := by
        apply visitAll_preserves (I := fun db' : Db => after.outbox.Grows db'.outbox)
        · intro id _ db' hdb'
          exact hdb'.trans (checkOne_grows chain id db')
        · exact .refl after.outbox
      unfold checkAll
      rw [hrest, hafter]
      exact hgrows.subset hmem

end Outgoing

/-! ## A reorg of the simulated chain -/

/-- The reorg has orphaned the block and mined its fork. -/
structure Orphans (config : MockChain.Config) (depth : Nat) (s s' : MockChain.State)
    (block : MockBlock) : Prop where
  reorg : ∃ drop draw, s' = MockChain.reorg config depth drop draw s
  longer : headNumber s' = headNumber s + 1
  mem : block ∈ s.blocks.rows
  canonical : block.isCanonical = true
  above_genesis : MockChain.genesisNumber < block.number
  within : headNumber s < block.number + depth

theorem Orphans.consistent {config : MockChain.Config} {depth : Nat}
    {s s' : MockChain.State} {block : MockBlock} (h : Orphans config depth s s' block)
    (hs : MockChain.Reachable config s) : MockChain.Consistent s' := by
  obtain ⟨drop, draw, rfl⟩ := h.reorg
  obtain ⟨steps, hsteps⟩ := MockChain.reorg_eq_run config depth drop draw s
  rw [hsteps]
  exact runSteps_preserves (fun s step => MockChain.chainStep_consistent config s step)
    hs.consistent steps

theorem getBlockNumber_down (config : MockChain.Config) {s : MockChain.State}
    (hdown : MockChain.assertRpcUp s ≠ .ok ()) :
    (MockChain.adapter config).getBlockNumber s =
      .error (.rpcUnavailable "simulated RPC node is unreachable") := by
  simp only [MockChain.adapter, MockChain.getBlockNumber, MockChain.assertRpcUp] at hdown ⊢
  split at hdown
  next => exact (hdown rfl).elim
  next hfault => simp [hfault, bind, Except.bind]

/-- Whatever transactions the service has committed, a reorg no deeper than the window
which loses a confirmed row is noticed by the next run of its watcher, if and only if the
node is reachable, the block of the row is not the lowest one of a reorg exactly as deep
as the window, and the loss from this block has not been announced before. -/
theorem lost_rows_reversed_iff {config : MockChain.Config} {settings : Settings} {db : Db}
    (hdb : Db.empty.Commits settings db) {s s' : MockChain.State}
    (hs : MockChain.Reachable config s) {depth : Nat}
    (hdepth : depth ≤ settings.finalityDepth) {block : MockBlock}
    (hreorg : Orphans config depth s s' block) {scope : Scope} (hscope : scope.Generated) :
    (∀ d : Deposit, db.deposits.find? d.identity = some d → d.status = .confirmed →
      d.blockNumber = block.number → d.blockHash = block.hash →
      receiptOf s' d.txHash = none →
      (DepositReversed db (watchDepositsOnce (MockChain.adapter config) settings scope s'
          (fun _ => .fixed s') db).2 d ↔
        MockChain.assertRpcUp s' = .ok () ∧
          block.number + settings.finalityDepth ≠ headNumber s + 1 ∧
          ¬db.outbox.Has (reorgedEventId d.identity d.blockHash))) ∧
    ∀ record : OutgoingTransaction, db.outgoing.find? record.transferId = some record →
      record.status = .confirmed → record.blockNumber = some block.number →
      record.blockHash = some block.hash →
      ∀ txHash, record.txHash = some txHash → receiptOf s' txHash = none →
      (TransferReversed db (watchOutgoingOnce (MockChain.adapter config) settings scope s'
          (fun _ => s') db).2 record ↔
        MockChain.assertRpcUp s' = .ok () ∧
          block.number + settings.finalityDepth ≠ headNumber s + 1 ∧
          ¬db.outbox.Has (lostEventId record)) := by
  have hs' := hreorg.consistent hs
  have hassets := hdb.assetsKnown
  have hwithin := hreorg.within
  have hedge : headNumber s' < block.number + settings.finalityDepth ↔
      block.number + settings.finalityDepth ≠ headNumber s + 1 := by
    rw [hreorg.longer]
    omega
  constructor
  · intro d hd hconfirmed hnumber _ hgone
    by_cases hup : MockChain.assertRpcUp s' = .ok ()
    · have hshows := MockChain.shows_view config hs' hup
      have hhead : headNumber s' ≠ 0 := by
        rw [hreorg.longer]
        omega
      rw [watchDepositsOnce_reverses_iff hshows hhead settings scope hassets hd hconfirmed
        hgone, hnumber]
      exact (and_congr_left' hedge).trans (iff_and_self.mpr fun _ => hup)
    · refine iff_of_false ?_ fun h => hup h.1
      rintro ⟨⟨d', hd', hreorged⟩, _⟩
      simp only [watchDepositsOnce, getBlockNumber_down config hup] at hd'
      rw [hd, Option.some.injEq] at hd'
      rw [← hd', hconfirmed] at hreorged
      cases hreorged
  · intro record hrecord hconfirmed hnumber _ txHash htx hgone
    by_cases hup : MockChain.assertRpcUp s' = .ok ()
    · have hshows := MockChain.shows_view config hs' hup
      rw [watchOutgoingOnce_reverses_iff hshows settings hscope hassets hrecord hconfirmed
        htx hnumber hgone]
      exact (and_congr_left' hedge).trans (iff_and_self.mpr fun _ => hup)
    · refine iff_of_false ?_ fun h => hup h.1
      rintro ⟨⟨record', hrecord', hreorged⟩, _⟩
      simp only [watchOutgoingOnce, getBlockNumber_down config hup] at hrecord'
      rw [hrecord, Option.some.injEq] at hrecord'
      rw [← hrecord', hconfirmed] at hreorged
      cases hreorged

/-! ### A window of one block -/

def windowOf (finalityDepth : Nat) : Settings :=
  { Settings.standard with confirmationsRequired := 1, finalityDepth }

def drawnScope : Scope :=
  { someScope with freshCorrelationId := newCorrelationId (someUuid 7) }

/-- An address is issued, and a deposit in block 2 detected and confirmed. -/
def confirmingTasks : List (ServiceTask MockChain.State) :=
  [.deposits (.issueAddress "user-1" "BSC" custodyAddress.address.val),
    .deposits (.scan someScope (fun _ => someUuid 100) (.fixed (depositChain 0))),
    .deposits (.watch someScope (depositChain 0) fun _ => .fixed (depositChain 0))]

@[irreducible] def confirmedDb (finalityDepth : Nat) : Db :=
  runSteps (ServiceTask.run (MockChain.adapter .bsc) (windowOf finalityDepth)) .empty
    confirmingTasks

theorem confirmedDb_commits (finalityDepth : Nat) :
    Db.empty.Commits (windowOf finalityDepth) (confirmedDb finalityDepth) := by
  unfold confirmedDb
  exact ServiceTask.runs_commit (MockChain.adapter .bsc) _ confirmingTasks .empty

def droppedTx : List String := [(MockChain.txHashOf .bsc "deposit-1").val]

/-- Block 2 is replaced, and the deposit is dropped. -/
@[irreducible] def orphanedChain : MockChain.State :=
  MockChain.reorg .bsc 1 droppedTx (fun n => someUuid (50 + n)) (depositChain 0)

/-- The row of the deposit before the reorg. -/
def Lost (finalityDepth : Nat) (d : Deposit) (block : MockBlock) : Prop :=
  (confirmedDb finalityDepth).deposits.find? d.identity = some d ∧ d.status = .confirmed ∧
    d.blockNumber = block.number ∧ d.blockHash = block.hash ∧
    receiptOf orphanedChain d.txHash = none ∧
    ¬(confirmedDb finalityDepth).outbox.Has (reorgedEventId d.identity d.blockHash)

instance (finalityDepth : Nat) (d : Deposit) (block : MockBlock) :
    Decidable (Lost finalityDepth d block) :=
  inferInstanceAs (Decidable (_ ∧ _))

theorem orphanedChain_reads :
    headNumber (depositChain 0) = 2 ∧ headNumber orphanedChain = 3 ∧
      MockChain.assertRpcUp orphanedChain = .ok () ∧
      (∃ d ∈ (confirmedDb 1).deposits.rows, ∃ block ∈ (depositChain 0).blocks.rows,
        (block.isCanonical = true ∧ block.number = 2) ∧ Lost 1 d block ∧
          (watchDepositsOnce (MockChain.adapter .bsc) (windowOf 1) drawnScope orphanedChain
            (fun _ => .fixed orphanedChain) (confirmedDb 1)).2.deposits.find? d.identity =
              some d) ∧
      ∃ d ∈ (confirmedDb 15).deposits.rows, ∃ block ∈ (depositChain 0).blocks.rows,
        (block.isCanonical = true ∧ block.number = 2) ∧ Lost 15 d block := by
  decide +kernel

theorem orphanedChain_orphans {block : MockBlock} (hmem : block ∈ (depositChain 0).blocks.rows)
    (hcanonical : block.isCanonical = true) (hnumber : block.number = 2) :
    Orphans .bsc 1 (depositChain 0) orphanedChain block := by
  obtain ⟨hhead, hhead', _⟩ := orphanedChain_reads
  refine ⟨⟨droppedTx, fun n => someUuid (50 + n), by rw [orphanedChain]⟩, ?_, hmem,
    hcanonical, ?_, ?_⟩
  · rw [hhead, hhead']
  · rw [hnumber]
    decide
  · rw [hhead, hnumber]
    decide

/-- The block of the deposit is the head when it is replaced; the watcher leaves it out. -/
theorem deposit_at_the_edge_stays_confirmed :
    Db.empty.Commits (windowOf 1) (confirmedDb 1) ∧
      ∃ d ∈ (confirmedDb 1).deposits.rows, ∃ block ∈ (depositChain 0).blocks.rows,
        Lost 1 d block ∧ Orphans .bsc 1 (depositChain 0) orphanedChain block ∧
        ¬DepositReversed (confirmedDb 1) (watchDepositsOnce (MockChain.adapter .bsc)
          (windowOf 1) drawnScope orphanedChain (fun _ => .fixed orphanedChain)
          (confirmedDb 1)).2 d := by
  obtain ⟨_, _, _, ⟨d, hd, block, hblock, ⟨hcanonical, hnumber⟩, hlost, hkept⟩, _⟩ :=
    orphanedChain_reads
  refine ⟨confirmedDb_commits 1, d, hd, block, hblock, hlost,
    orphanedChain_orphans hblock hcanonical hnumber, ?_⟩
  rintro ⟨⟨d', hd', hreorged⟩, _⟩
  rw [hkept, Option.some.injEq] at hd'
  rw [← hd', hlost.2.1] at hreorged
  cases hreorged

/-- With a window of 15 blocks the same reorg is noticed. -/
theorem deposit_in_the_window_is_reversed :
    ∃ d ∈ (confirmedDb 15).deposits.rows, DepositReversed (confirmedDb 15)
      (watchDepositsOnce (MockChain.adapter .bsc) (windowOf 15) drawnScope orphanedChain
        (fun _ => .fixed orphanedChain) (confirmedDb 15)).2 d := by
  obtain ⟨hhead, _, hup, _, d, hd, block, hblock, ⟨hcanonical, hnumber⟩, hfind, hconfirmed,
    hat, hhash, hgone, hfresh⟩ := orphanedChain_reads
  have hreachable : MockChain.Reachable .bsc (depositChain 0) :=
    ⟨depositSteps 0, by rw [depositChain]⟩
  have hdepth : 1 ≤ (windowOf 15).finalityDepth := by decide
  have hscope : drawnScope.Generated := ⟨someUuid 7, rfl⟩
  have hiff := (lost_rows_reversed_iff (confirmedDb_commits 15) hreachable hdepth
    (orphanedChain_orphans hblock hcanonical hnumber) hscope).1 d hfind hconfirmed hat
    hhash hgone
  refine ⟨d, hd, hiff.mpr ⟨hup, ?_, hfresh⟩⟩
  rw [hnumber, hhead]
  decide

end CryptoWallet.Blockchain
