import CryptoWallet.WatcherRuns
import CryptoWallet.WorkerPair

/-!
# What a failure says about the confirmation

The event of a failure tells the wallet service whether to reverse postings or merely to
release a hold.  It is read off the record, whose status says whether the confirmation
was announced, except where the status is overwritten first.
-/

namespace CryptoWallet.Blockchain

open Tx

/-- The event that the transfer was confirmed is among these. -/
def confirmedIn (transferId : Uuid) (events : List Envelope) : Bool :=
  events.any fun event => event.eventType = .txConfirmed &&
    event.payload.get? "transfer_id" = some (.str transferId.str)

/-- Every failure says whether a confirmation of its transfer was enqueued before. -/
def Truthful (events : List Envelope) : Prop :=
  ∀ before failed after, events = before ++ failed :: after → failed.eventType = .txFailed →
    ∀ transferId : Uuid, failed.payload.get? "transfer_id" = some (.str transferId.str) →
      (failed.payload.get? "was_confirmed" = some (.bool true) ↔
        confirmedIn transferId before = true)

theorem Truthful.nil : Truthful [] := by
  intro before failed after hsplit
  have hlength := congrArg List.length hsplit
  simp at hlength

theorem Truthful.append {events : List Envelope} (h : Truthful events) {event : Envelope}
    (hevent : event.eventType = .txFailed → ∀ transferId : Uuid,
      event.payload.get? "transfer_id" = some (.str transferId.str) →
        (event.payload.get? "was_confirmed" = some (.bool true) ↔
          confirmedIn transferId events = true)) :
    Truthful (events ++ [event]) := by
  intro before failed after hsplit
  rcases List.eq_nil_or_concat after with rfl | ⟨after', last, rfl⟩
  · obtain ⟨rfl, hlast⟩ := List.append_inj' hsplit rfl
    rw [List.cons.injEq] at hlast
    rw [← hlast.1]
    exact hevent
  · rw [List.concat_eq_append, ← List.cons_append, ← List.append_assoc] at hsplit
    obtain ⟨hold, _⟩ := List.append_inj' hsplit rfl
    exact h before failed after' hold

/-! ## Events about one transfer -/

def confirmationId (transferId : Uuid) (txHash : ChainHash) : EventId :=
  .uuid5 (EventType.txConfirmed.name ++ "|" ++
    (transferId.str ++ ":" ++ txHash.val ++ ":confirmed"))

/-- The event is about this transfer, and is named like a confirmation only if it is one. -/
structure AboutTransfer (transferId : Uuid) (event : Envelope) : Prop where
  transfer : event.payload.get? "transfer_id" = some (.str transferId.str)
  named : ∀ other txHash, event.eventId = confirmationId other txHash →
    event.eventType = .txConfirmed ∧ other = transferId

theorem confirmedIn_append {transferId : Uuid} {events : List Envelope} {event : Envelope}
    {about : Uuid} (habout : AboutTransfer about event) :
    confirmedIn transferId (events ++ [event]) = true ↔
      confirmedIn transferId events = true ∨
        (event.eventType = .txConfirmed ∧ transferId = about) := by
  have hsame : (some (Json.str about.str) = some (.str transferId.str)) ↔
      transferId = about := by
    constructor
    · intro h
      simp only [Option.some.injEq, Json.str.injEq] at h
      exact (Uuid.str_injective h).symm
    · rintro rfl
      rfl
  simp only [confirmedIn, List.any_append, List.any_cons, List.any_nil, Bool.or_false,
    Bool.or_eq_true, Bool.and_eq_true, decide_eq_true_eq, habout.transfer, hsame]

section About

variable (scope : Scope) {record : OutgoingTransaction} {payload : Payload}

theorem failedEvent_about {failed : OutgoingTransaction} {wasConfirmed : Bool}
    {reason code : String} (dedupeKey : String)
    (hpayload : failurePayload failed wasConfirmed reason code = .ok payload)
    (hkey : failed.transferId = record.transferId) :
    AboutTransfer record.transferId (failedEvent scope record payload dedupeKey) ∧
      payload.get? "was_confirmed" = some (.bool wasConfirmed) := by
  unfold failurePayload at hpayload
  split at hpayload
  · cases hpayload
  · cases hpayload
    refine ⟨⟨?_, ?_⟩, rfl⟩
    · rw [← hkey]
      rfl
    · intro other txHash hid
      by_cases hempty : dedupeKey = ""
      · simp [failedEvent, newEvent, hempty, confirmationId] at hid
      · have hname : EventType.txFailed.name ++ "|" ++ dedupeKey =
            EventType.txConfirmed.name ++ "|" ++
              (other.str ++ ":" ++ txHash.val ++ ":confirmed") := by
          simpa [failedEvent, newEvent, hempty, confirmationId] using hid
        have hlist := congrArg String.toList hname
        simp [EventType.name] at hlist

theorem broadcastedEvent_about {row : OutgoingTransaction} {txHash : ChainHash}
    (hpayload : broadcastedPayload record txHash = .ok payload) :
    AboutTransfer record.transferId (broadcastedEvent scope row record txHash payload) := by
  unfold broadcastedPayload at hpayload
  split at hpayload
  · cases hpayload
  · cases hpayload
    refine ⟨rfl, ?_⟩
    intro other txHash' hid
    have hname : EventType.txBroadcasted.name ++ "|" ++
        (record.transferId.str ++ ":" ++ txHash.val ++ ":broadcast") =
          EventType.txConfirmed.name ++ "|" ++
            (other.str ++ ":" ++ txHash'.val ++ ":confirmed") := by
      simpa [broadcastedEvent, newEvent, confirmationId] using hid
    have hlist := congrArg String.toList hname
    simp [EventType.name] at hlist

theorem txConfirmedEvent_eventId (txHash : ChainHash) (payload : Payload) :
    (txConfirmedEvent scope record txHash payload).eventId =
      confirmationId record.transferId txHash := by
  simp [txConfirmedEvent, newEvent, confirmationId]

theorem confirmationId_inj {transferId other : Uuid} {txHash txHash' : ChainHash}
    (h : confirmationId transferId txHash = confirmationId other txHash') :
    transferId = other := by
  simp only [confirmationId, EventId.uuid5.injEq, String.append_right_inj,
    String.append_left_inj] at h
  have hlist := congrArg String.toList h
  simp only [String.toList_append, List.append_assoc] at hlist
  have hlength : transferId.str.toList.length = other.str.toList.length := by
    rw [String.length_toList, String.length_toList, Uuid.str_length, Uuid.str_length]
  exact Uuid.str_injective (String.toList_inj.mp (List.append_inj hlist hlength).1)

theorem txConfirmedEvent_about {confirmed : OutgoingTransaction} {txHash : ChainHash}
    {receipt : TxReceipt} (hpayload : confirmedPayload confirmed txHash receipt = .ok payload)
    (hkey : confirmed.transferId = record.transferId) :
    AboutTransfer record.transferId (txConfirmedEvent scope record txHash payload) := by
  unfold confirmedPayload at hpayload
  split at hpayload
  · cases hpayload
  · cases hpayload
    refine ⟨?_, ?_⟩
    · rw [← hkey]
      rfl
    · intro other txHash' hid
      rw [txConfirmedEvent_eventId] at hid
      exact ⟨rfl, (confirmationId_inj hid).symm⟩

end About

/-! ## The record and the events -/

/-- The status of a record whose confirmation was announced. -/
def OutgoingTransaction.WasConfirmed (record : OutgoingTransaction) : Prop :=
  record.status = .confirmed ∨ record.status = .reorged

/-- The failures are truthful, and the statuses tell which confirmations were announced. -/
structure Db.Tells (db : Db) : Prop where
  truthful : Truthful db.outbox.envelopes
  confirmed : ∀ transferId, confirmedIn transferId db.outbox.envelopes = true ↔
    ∃ record, db.outgoing.find? transferId = some record ∧ record.WasConfirmed
  named : ∀ event ∈ db.outbox.envelopes, ∀ transferId txHash,
    event.eventId = confirmationId transferId txHash →
      confirmedIn transferId db.outbox.envelopes = true

section Tells

variable {db db' : Db} {record record' : OutgoingTransaction} {event : Envelope}

theorem Db.Tells.confirmed_iff (h : db.Tells)
    (hrecord : db.outgoing.find? record.transferId = some record) :
    confirmedIn record.transferId db.outbox.envelopes = true ↔ record.WasConfirmed := by
  rw [h.confirmed]
  constructor
  · rintro ⟨other, hother, hconfirmed⟩
    rw [hrecord, Option.some.injEq] at hother
    rw [hother]
    exact hconfirmed
  · exact fun hconfirmed => ⟨record, hrecord, hconfirmed⟩

theorem confirmed_of_record (h : db.Tells)
    (hrecord' : db'.outgoing.find? record.transferId = some record')
    (hothers : ∀ transferId, transferId ≠ record.transferId →
      db'.outgoing.find? transferId = db.outgoing.find? transferId)
    (hself : confirmedIn record.transferId db'.outbox.envelopes = true ↔
      record'.WasConfirmed)
    (hevents : ∀ transferId, transferId ≠ record.transferId →
      (confirmedIn transferId db'.outbox.envelopes = true ↔
        confirmedIn transferId db.outbox.envelopes = true)) (transferId : Uuid) :
    confirmedIn transferId db'.outbox.envelopes = true ↔
      ∃ row, db'.outgoing.find? transferId = some row ∧ row.WasConfirmed := by
  by_cases hid : transferId = record.transferId
  · subst hid
    rw [hself]
    constructor
    · exact fun hconfirmed => ⟨record', hrecord', hconfirmed⟩
    · rintro ⟨row, hrow, hconfirmed⟩
      rw [hrecord', Option.some.injEq] at hrow
      rw [hrow]
      exact hconfirmed
  · rw [hevents transferId hid, hothers transferId hid]
    exact h.confirmed transferId

/-- A write without an event which keeps the record on its side. -/
theorem Db.Tells.saved (h : db.Tells)
    (hrecord : db.outgoing.find? record.transferId = some record)
    (hkey : record'.transferId = record.transferId)
    (hsame : record'.WasConfirmed ↔ record.WasConfirmed) : (db.saved record').Tells := by
  refine ⟨h.truthful, ?_, h.named⟩
  apply confirmed_of_record h (Table.find?_replace_of_key _ hkey hrecord)
  · intro transferId hid
    apply Table.find?_replace_of_ne
    rwa [hkey]
  · rw [hsame]
    exact h.confirmed_iff hrecord
  · exact fun _ _ => Iff.rfl

theorem Db.Tells.announced (h : db.Tells)
    (hrecord : db.outgoing.find? record.transferId = some record)
    (hkey : record'.transferId = record.transferId)
    (habout : AboutTransfer record.transferId event)
    (hfailed : event.eventType = .txFailed →
      (event.payload.get? "was_confirmed" = some (.bool true) ↔ record.WasConfirmed))
    (hside : record'.WasConfirmed ↔ record.WasConfirmed ∨ event.eventType = .txConfirmed)
    (hconfirmation : event.eventType = .txConfirmed →
      ∃ txHash, event.eventId = confirmationId record.transferId txHash)
    (hannounces : db.Announces record' event db') : db'.Tells := by
  obtain ⟨outbox, henqueue, rfl⟩ := hannounces
  have hrecord' : (db.outgoing.replace record').find? record.transferId = some record' :=
    Table.find?_replace_of_key _ hkey hrecord
  have hothers : ∀ transferId, transferId ≠ record.transferId →
      (db.outgoing.replace record').find? transferId = db.outgoing.find? transferId := by
    intro transferId hid
    apply Table.find?_replace_of_ne
    rwa [hkey]
  have hbefore := h.confirmed_iff hrecord
  rcases enqueueEvent_cases henqueue with ⟨htaken, rfl⟩ | ⟨_, hrows⟩
  · -- a confirmation taken for a repetition was announced before
    have hside' : record'.WasConfirmed ↔ record.WasConfirmed := by
      rw [hside]
      constructor
      · rintro (hsame | hconfirmed)
        · exact hsame
        · obtain ⟨txHash, hid⟩ := hconfirmation hconfirmed
          obtain ⟨old, hold, hnamed⟩ := (Outbox.has_iff _ _).mp htaken
          exact hbefore.mp (h.named old hold _ txHash (hnamed.trans hid))
      · exact Or.inl
    exact ⟨h.truthful, confirmed_of_record h hrecord' hothers
      (hbefore.trans hside'.symm) (fun _ _ => Iff.rfl), h.named⟩
  · refine ⟨?_, ?_, ?_⟩
    · dsimp only
      rw [hrows]
      apply h.truthful.append
      intro htype transferId htransfer
      have hid : record.transferId = transferId := by
        rw [habout.transfer, Option.some.injEq, Json.str.injEq] at htransfer
        exact Uuid.str_injective htransfer
      rw [hfailed htype, ← hid]
      exact hbefore.symm
    · apply confirmed_of_record h hrecord' hothers
      · dsimp only
        rw [hrows, confirmedIn_append habout, hbefore, hside]
        simp
      · intro transferId hid
        dsimp only
        rw [hrows, confirmedIn_append habout]
        simp [hid]
    · dsimp only
      rw [hrows]
      intro other hother transferId txHash hid
      rw [confirmedIn_append habout]
      rcases List.mem_append.mp hother with hold | hnew
      · exact Or.inl (h.named other hold transferId txHash hid)
      · rw [List.mem_singleton.mp hnew] at hid
        exact Or.inr (habout.named transferId txHash hid)

/-- A new record which is not confirmed. -/
theorem Db.Tells.inserted (h : db.Tells) {record : OutgoingTransaction}
    {outgoing : Table Uuid OutgoingTransaction OutgoingTransaction.transferId}
    (hinsert : db.outgoing.insert? record = some outgoing)
    (hopen : ¬record.WasConfirmed) : ({ db with outgoing } : Db).Tells := by
  refine ⟨h.truthful, ?_, h.named⟩
  intro transferId
  dsimp only
  rw [h.confirmed, Table.find?_insert? hinsert]
  by_cases hid : transferId = record.transferId
  · subst hid
    rw [Table.insert?_free hinsert, if_pos rfl]
    constructor
    · rintro ⟨row, hrow, _⟩
      cases hrow
    · rintro ⟨row, hrow, hconfirmed⟩
      rw [← Option.some.inj hrow] at hconfirmed
      exact (hopen hconfirmed).elim
  · rw [if_neg hid]

/-- A write to the record of a failure, or a report of its broadcast. -/
theorem Db.Tells.failed (h : db.Tells) {scope : Scope}
    (hrecord : db.outgoing.find? record.transferId = some record)
    {failed : OutgoingTransaction} (hkey : failed.transferId = record.transferId)
    {about : OutgoingTransaction} (habout : about.transferId = record.transferId)
    {wasConfirmed : Bool} {reason code dedupeKey : String} {payload : Payload}
    (hpayload : failurePayload failed wasConfirmed reason code = .ok payload)
    (hflag : wasConfirmed = true ↔ record.WasConfirmed)
    (hside : failed.WasConfirmed ↔ record.WasConfirmed)
    (hannounces : db.Announces failed (failedEvent scope about payload dedupeKey) db') :
    db'.Tells := by
  obtain ⟨hevent, hwas⟩ := failedEvent_about scope dedupeKey hpayload (hkey.trans habout.symm)
  rw [habout] at hevent
  apply h.announced hrecord hkey hevent ?_ ?_ ?_ hannounces
  · intro _
    have hpayloadOf : (failedEvent scope about payload dedupeKey).payload = payload := rfl
    rw [hpayloadOf, hwas, ← hflag]
    simp
  · rw [hside]
    simp [failedEvent, newEvent]
  · intro htype
    simp [failedEvent, newEvent] at htype

end Tells

/-! ## Every write -/

section Writes

variable {settings : Settings} {scope : Scope} {db db' : Db} {record : OutgoingTransaction}

theorem OutgoingTransaction.not_wasConfirmed {record : OutgoingTransaction} (status : TxStatus)
    (h : record.status = status) (hconfirmed : status ≠ .confirmed)
    (hreorged : status ≠ .reorged) : ¬record.WasConfirmed := by
  rintro (hstatus | hstatus)
  · exact hconfirmed (h.symm.trans hstatus)
  · exact hreorged (h.symm.trans hstatus)

theorem answered_tells (h : db.Tells) {answer : Except ChainError ChainHash}
    (hrecord : db.outgoing.find? record.transferId = some record)
    (hpending : record.status = .pending)
    (hanswered : Answered settings scope record db record answer db') : db'.Tells := by
  have hopen : ¬record.WasConfirmed :=
    OutgoingTransaction.not_wasConfirmed .pending hpending (by simp) (by simp)
  cases hanswered with
  | closed txHash hstatus => exact h
  | broadcast txHash hnot payload hpayload db' hannounces =>
      have hbroadcasted : ¬(record.broadcastedAs scope.now txHash).WasConfirmed :=
        OutgoingTransaction.not_wasConfirmed .broadcasted rfl (by simp) (by simp)
      have hkey : (record.broadcastedAs scope.now txHash).transferId = record.transferId := rfl
      apply h.announced hrecord hkey (broadcastedEvent_about scope hpayload) ?_ ?_ ?_ hannounces
      · intro htype
        simp [broadcastedEvent, newEvent] at htype
      · simp [hbroadcasted, hopen, broadcastedEvent, newEvent]
      · intro htype
        simp [broadcastedEvent, newEvent] at htype
  | confirmed answer habandoned hstatus => exact h
  | failed answer habandoned hnot reason code payload hpayload db' hannounces =>
      have hfailed : ¬(record.failedBroadcast reason).WasConfirmed :=
        OutgoingTransaction.not_wasConfirmed .failed rfl (by simp) (by simp)
      have hkey : (record.failedBroadcast reason).transferId = record.transferId := rfl
      exact h.failed hrecord hkey hkey hpayload (by simp [hopen]) (by simp [hfailed, hopen])
        hannounces
  | retried answer hretriable reason =>
      have hkey : (record.retried scope.now record.attempts reason).transferId =
          record.transferId := rfl
      have hretried : ¬(record.retried scope.now record.attempts reason).WasConfirmed :=
        OutgoingTransaction.not_wasConfirmed .pending rfl (by simp) (by simp)
      exact h.saved hrecord hkey (by simp [hretried, hopen])

theorem checked_tells (h : db.Tells) {head : Nat} {seen : SeenRecord}
    {receipt : Option TxReceipt}
    (hrecord : db.outgoing.find? record.transferId = some record)
    (hstatus : record.status = .broadcasted ∨ record.status = .confirmed)
    (hseen : record.seen = some seen)
    (hrevert : ∀ found, receipt = some found → found.status = 0 →
      record.status ≠ .confirmed)
    (hchecked : Checked settings scope head seen db record receipt db') : db'.Tells := by
  have hseenStatus : seen.status = record.status := by
    obtain ⟨txHash, _, rfl⟩ := Option.map_eq_some_iff.mp hseen
    rfl
  have hbroadcasted : record.status ≠ .confirmed → ¬record.WasConfirmed := by
    intro hnot
    exact OutgoingTransaction.not_wasConfirmed .broadcasted (hstatus.resolve_right hnot)
      (by simp) (by simp)
  cases hchecked with
  | reverted receipt hreverted hnot payload hpayload db' hannounces =>
      have hopen := hbroadcasted (hrevert receipt rfl hreverted)
      have hfailed : ¬((record.minedIn head receipt).failedFor revertReason).WasConfirmed :=
        OutgoingTransaction.not_wasConfirmed .failed rfl (by simp) (by simp)
      have hkey : ((record.minedIn head receipt).failedFor revertReason).transferId =
          record.transferId := rfl
      exact h.failed hrecord hkey rfl hpayload (by simp [hopen]) (by simp [hfailed, hopen])
        hannounces
  | confirmed receipt hripe payload hpayload db' hannounces =>
      have hconfirmed : (record.minedIn head receipt).confirmed.WasConfirmed := Or.inl rfl
      have hkey : (record.minedIn head receipt).confirmed.transferId = record.transferId := rfl
      apply h.announced hrecord hkey (txConfirmedEvent_about scope hpayload hkey) ?_ ?_ ?_
        hannounces
      · intro htype
        simp [txConfirmedEvent, newEvent] at htype
      · simp [hconfirmed, txConfirmedEvent, newEvent]
      · exact fun _ => ⟨seen.txHash, txConfirmedEvent_eventId scope seen.txHash payload⟩
  | mined receipt hreverted hripe =>
      have hkey : (record.minedIn head receipt).transferId = record.transferId := rfl
      exact h.saved hrecord hkey Iff.rfl
  | reorged hconfirmed payload hpayload dedupeKey db' hannounces =>
      have hwas : record.WasConfirmed := Or.inl (hseenStatus.symm.trans hconfirmed)
      have hreorged : record.reorged.WasConfirmed := Or.inr rfl
      have hkey : record.reorged.transferId = record.transferId := rfl
      exact h.failed hrecord hkey rfl hpayload (by simp [hwas]) (by simp [hreorged, hwas])
        hannounces
  | waiting hnot hstuck => exact h
  | requeued hnot hstuck hattempts =>
      have hopen := hbroadcasted (hseenStatus ▸ hnot)
      have hrequeued : ¬(record.requeued scope.now).WasConfirmed :=
        OutgoingTransaction.not_wasConfirmed .pending rfl (by simp) (by simp)
      have hkey : (record.requeued scope.now).transferId = record.transferId := rfl
      exact h.saved hrecord hkey (by simp [hrequeued, hopen])
  | abandoned hnot hstuck hattempts reason payload hpayload db' hannounces =>
      have hopen := hbroadcasted (hseenStatus ▸ hnot)
      have hfailed : ¬(record.failedFor reason).WasConfirmed :=
        OutgoingTransaction.not_wasConfirmed .failed rfl (by simp) (by simp)
      have hkey : (record.failedFor reason).transferId = record.transferId := rfl
      exact h.failed hrecord hkey rfl hpayload (by simp [hopen]) (by simp [hfailed, hopen])
        hannounces

theorem dispatched_tells (h : db.Tells) {envelope : Envelope}
    (hdispatched : Dispatched scope envelope db db') : db'.Tells := by
  have hclaimed : ∀ processedEvents, ({ db with processedEvents } : Db).Tells :=
    fun _ => ⟨h.truthful, h.confirmed, h.named⟩
  cases hdispatched with
  | duplicate => exact h
  | ignored processedEvents => exact hclaimed processedEvents
  | accepted processedEvents hrequested db' haccepted =>
      have hnew : ∀ {proposed : OutgoingTransaction} {now payload correlationId},
          proposedOutgoing now payload correlationId = .ok proposed →
            ¬proposed.WasConfirmed := fun hproposed =>
        OutgoingTransaction.not_wasConfirmed .created (proposedOutgoing_untouched hproposed).status
          (by simp) (by simp)
      cases haccepted with
      | duplicate proposed hproposed htaken => exact hclaimed processedEvents
      | accepted proposed hproposed hknown outgoing hinsert =>
          exact (hclaimed processedEvents).inserted hinsert (hnew hproposed)
      | unknown proposed hproposed hunknown outgoing hinsert failed hpayload db' hannounces =>
          have hinserted := (hclaimed processedEvents).inserted hinsert (hnew hproposed)
          have hstored : outgoing.find? proposed.transferId = some proposed :=
            (Table.find?_insert? hinsert _).trans (if_pos rfl)
          have hopen := hnew hproposed
          have hfailed : ¬(proposed.failedFor unknownAddressReason).WasConfirmed :=
            OutgoingTransaction.not_wasConfirmed .failed rfl (by simp) (by simp)
          have hkey : (proposed.failedFor unknownAddressReason).transferId =
              proposed.transferId := rfl
          exact hinserted.failed hstored hkey rfl hpayload (by simp [hopen])
            (by simp [hfailed, hopen]) hannounces

theorem claimDue_tells (h : db.Tells) (now limit : Nat) :
    (claimDue now limit db).2.Tells := by
  refine ⟨h.truthful, ?_, h.named⟩
  intro transferId
  have hevents : (claimDue now limit db).2.outbox = db.outbox := rfl
  rw [hevents, h.confirmed, WorkerPair.claimDue_find?]
  cases hfind : db.outgoing.find? transferId with
  | none => simp
  | some record =>
      by_cases hdue : record ∈ dueRecords now limit db
      · -- a due record is open, and stays so
        have hstatus := (mem_dueRecords hdue).2
        simp only [OutgoingTransaction.due, Bool.and_eq_true, Bool.or_eq_true,
          decide_eq_true_eq] at hstatus
        have hopen : ¬record.WasConfirmed := by
          rcases hstatus.1 with hcreated | hpending
          · exact OutgoingTransaction.not_wasConfirmed .created hcreated (by simp) (by simp)
          · exact OutgoingTransaction.not_wasConfirmed .pending hpending (by simp) (by simp)
        have hclaimed : ¬(record.claimed now).WasConfirmed :=
          OutgoingTransaction.not_wasConfirmed .pending rfl (by simp) (by simp)
        simp [hdue, hopen, hclaimed]
      · simp [hdue]

end Writes

namespace WorkerPair

/-- The check finds the transaction of a confirmed record reverted. -/
def findsLateRevert (w : WorkerPair) : PairStep → Bool
  | .check _ =>
    match w.listed, w.phase with
    | transferId :: _, .told _ (some receipt) =>
      receipt.status = 0 &&
        (w.db.outgoing.find? transferId).any fun record => record.status = .confirmed
    | _, _ => false
  | _ => false

theorem stepped_tells {settings : Settings} {w w' : WorkerPair} {action : PairStep}
    (horderly : w.Orderly) (h : w.db.Tells) (hrevert : w.findsLateRevert action = false)
    (hstep : Stepped settings w action w') : w'.db.Tells := by
  cases hstep with
  | idle => exact h
  | requested scope envelope db hdispatched => exact dispatched_tells h hdispatched
  | claimed now limit hfree => exact claimDue_tells h now limit
  | answered answer => exact h
  | recorded scope row rest answer record db hclaimed hrecord hanswered =>
      obtain ⟨hrow, hpending⟩ := horderly.claimed row (by
        rw [hclaimed]
        exact List.mem_cons_self)
      rw [hrow, Option.some.injEq] at hrecord
      subst hrecord
      exact answered_tells h hrow hpending hanswered
  | missing scope row rest hclaimed hnone => exact h
  | raised scope row rest answer e hclaimed hanswer hraised => exact h
  | crashed => exact h
  | looked action head listed phase hlooked => exact h
  | checked scope transferId rest seen receipt record db hlisted hphase hrecord hchecked =>
      obtain ⟨hstatus, hseen⟩ := horderly.checking hlisted hphase hrecord
      have hkey := Table.key_of_find? hrecord
      subst hkey
      apply checked_tells h hrecord hstatus hseen ?_ hchecked
      rintro found rfl hreverted hconfirmed
      simp [findsLateRevert, hlisted, hphase, hrecord, hreverted, hconfirmed] at hrevert

end WorkerPair

/-! ## On the simulated chain -/

open MockChain (ChainStep)

/-- The simulated node and the service. -/
structure MinedWorld where
  chain : MockChain.State
  pair : WorkerPair

/-- Blocks are mined and orphaned, and the loops of the service ask the node. -/
inductive MinedStep where
  | chain (step : ChainStep)
  | request (scope : Scope) (envelope : Envelope)
  | claim (now limit : Nat)
  | send
  | record (scope : Scope)
  | crash
  | list
  | read
  | receipt
  | check (scope : Scope)
  | leave

namespace MinedWorld

def start (addresses : Table String Address Address.owner) : MinedWorld :=
  ⟨.empty, .start addresses⟩

/-- What the service does, as the node answers now. -/
def served (config : MockChain.Config) (w : MinedWorld) : MinedStep → Option PairStep
  | .chain _ => none
  | .request scope envelope => some (.request scope envelope)
  | .claim now limit => some (.claim now limit)
  | .send =>
    match w.pair.claimed with
    | [] => none
    | row :: _ => some (.send (MockChain.submit config false row.sendRequest w.chain).1)
  | .record scope => some (.record scope)
  | .crash => some .crash
  | .list =>
    match MockChain.getBlockNumber w.chain with
    | .ok head => some (.list head)
    | .error _ => none
  | .read => some .read
  | .receipt =>
    match w.pair.phase with
    | .asking seen =>
      match MockChain.getReceipt w.chain seen.txHash with
      | .ok receipt => some (.receipt receipt)
      | .error _ => some .leave
    | _ => none
  | .check scope => some (.check scope)
  | .leave => some .leave

def nextChain (config : MockChain.Config) (w : MinedWorld) : MinedStep → MockChain.State
  | .chain chainStep => MockChain.chainStep config chainStep w.chain
  | .send =>
    match w.pair.claimed, w.pair.answer with
    | row :: _, none => (MockChain.submit config false row.sendRequest w.chain).2
    | _, _ => w.chain
  | _ => w.chain

def step (config : MockChain.Config) (settings : Settings) (action : MinedStep)
    (w : MinedWorld) : MinedWorld where
  chain := w.nextChain config action
  pair :=
    match w.served config action with
    | some served => WorkerPair.step settings served w.pair
    | none => w.pair

def findsLateRevert (config : MockChain.Config) (w : MinedWorld) (action : MinedStep) : Bool :=
  (w.served config action).any w.pair.findsLateRevert

/-- In every run in which no check finds the transaction of a confirmed record reverted,
every failure says whether a confirmation was enqueued before it. -/
theorem failures_are_truthful {config : MockChain.Config} {settings : Settings}
    {addresses : Table String Address Address.owner} {actions : List MinedStep}
    (hadmitted : AdmittedRun (step config settings)
      (fun w action => w.findsLateRevert config action = false) (start addresses) actions) :
    Truthful
      (runSteps (step config settings) (start addresses) actions).pair.db.outbox.envelopes := by
  have hstart : (start addresses).pair.Orderly ∧ (start addresses).pair.db.Tells := by
    refine ⟨.start addresses, .nil, ?_, ?_⟩
    · intro transferId
      simp [start, WorkerPair.start, Db.empty, Outbox.envelopes, confirmedIn]
    · simp [start, WorkerPair.start, Db.empty, Outbox.envelopes]
  have hend := hadmitted.invariant (I := fun w => w.pair.Orderly ∧ w.pair.db.Tells)
    (fun w action h hrevert => by
      unfold findsLateRevert at hrevert
      dsimp only [step]
      split
      next served hserved =>
        rw [hserved, Option.any_some] at hrevert
        have hstep := WorkerPair.step_stepped settings served w.pair
        exact ⟨h.1.stepped hstep, WorkerPair.stepped_tells h.1 h.2 hrevert hstep⟩
      next => exact h) hstart
  exact hend.2.truthful

/-! ### A confirmed transfer whose funding is reorganised away -/

open TransferWorld (someRequest)

/-- The transfer is paid from a deposit, mined in block 3, and confirmed. -/
def confirmedSteps : List MinedStep :=
  [.chain .ensureStarted,
    .chain (.simulateDeposit custodyAddress.address.val 500 "deposit-1"),
    .chain (.mineBlock (someUuid 0)), .request someScope (someRequest 1), .claim 1000 20, .send,
    .record someScope, .chain (.mineBlock (someUuid 1)), .chain (.mineBlock (someUuid 2)),
    .chain (.mineBlock (someUuid 3)), .list, .read, .receipt, .check someScope]

/-- A reorg of four blocks drops the deposit; then the watcher runs. -/
def lateRevertSteps : List MinedStep :=
  confirmedSteps ++ .chain (.orphan 4 [(MockChain.txHashOf .bsc "deposit-1").val]) ::
    ((List.range 5).map fun n => .chain (.mineBlock (someUuid (n + 10)))) ++
      [.list, .read, .receipt, .check someScope]

/-- The events after the run. -/
def eventsAfter (settings : Settings) (steps : List MinedStep) : List Envelope :=
  (runSteps (step .bsc settings) (start Db.custody.addresses) steps).pair.db.outbox.envelopes

/-- The last event denies that the transfer was confirmed. -/
theorem late_revert_events :
    ∃ failed ∈ (eventsAfter .standard lateRevertSteps).getLast?,
      failed.eventType = .txFailed ∧
      failed.payload.get? "transfer_id" = some (.str (someUuid 1).str) ∧
      failed.payload.get? "was_confirmed" = some (.bool false) ∧
      confirmedIn (someUuid 1) (eventsAfter .standard lateRevertSteps).dropLast = true := by
  decide +kernel

theorem reverted_after_confirmation_is_not_truthful :
    ¬Truthful (eventsAfter .standard lateRevertSteps) := by
  intro h
  obtain ⟨failed, hlast, htype, htransfer, hdenied, hconfirmed⟩ := late_revert_events
  have hsplit : eventsAfter .standard lateRevertSteps =
      (eventsAfter .standard lateRevertSteps).dropLast ++ failed :: [] :=
    (List.dropLast_append_getLast? failed hlast).symm
  have hsays := (h _ failed [] hsplit htype (someUuid 1) htransfer).mpr hconfirmed
  rw [hdenied] at hsays
  cases hsays

/-- One confirmation is enough. -/
def hasty : Settings := { Settings.standard with confirmationsRequired := 1 }

/-- The transfer is confirmed in block 3, which is then replaced by one without it. -/
def disappearedSteps : List MinedStep :=
  confirmedSteps.take 8 ++ [.list, .read, .receipt, .check someScope,
    .chain (.orphan 1 [(MockChain.txHashOf .bsc (someUuid 1).str).val]),
    .chain (.mineBlock (someUuid 10)), .list, .read, .receipt, .check someScope]

/-- The transaction itself disappears, and the failure says it was confirmed. -/
theorem disappeared_transfer_facts :
    AdmittedRun (step .bsc hasty) (fun w action => w.findsLateRevert .bsc action = false)
        (start Db.custody.addresses) disappearedSteps ∧
      ∃ failed ∈ (eventsAfter hasty disappearedSteps).getLast?,
        failed.eventType = .txFailed ∧
        failed.payload.get? "was_confirmed" = some (.bool true) := by
  decide +kernel

theorem disappeared_transfer_is_truthful :
    (∃ failed ∈ (eventsAfter hasty disappearedSteps).getLast?, failed.eventType = .txFailed ∧
      failed.payload.get? "was_confirmed" = some (.bool true)) ∧
      Truthful (eventsAfter hasty disappearedSteps) :=
  ⟨disappeared_transfer_facts.2, failures_are_truthful disappeared_transfer_facts.1⟩

end MinedWorld

end CryptoWallet.Blockchain
