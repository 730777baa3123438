import CryptoWallet.DepositNews
import CryptoWallet.FailureReports
import CryptoWallet.SettledTransfers
import CryptoWallet.TransferOutcome

/-!
# The reports of the service about its transfers

While there is one broadcaster and one watcher, a record which is terminal has its
failure in the outbox, and no other has; so it is with confirmations, until the record
fails.  No report is lost to an event id which is taken.
-/

namespace CryptoWallet.Blockchain

open Tx
open Wallet (reports)

variable {σ : Type}

/-! ## The names of the reports -/

/-- The id of a report on the transfer. -/
def reportId (eventType : EventType) (transferId : Uuid) (rest : String) : EventId :=
  .uuid5 (eventType.name ++ "|" ++ (transferId.str ++ ":" ++ rest))

theorem report_name_inj {eventType other : EventType} (h : reports eventType = true)
    (hother : reports other = true) {key key' : String}
    (hname : eventType.name ++ "|" ++ key = other.name ++ "|" ++ key') :
    eventType = other ∧ key = key' := by
  have hlist := congrArg String.toList hname
  cases eventType with
  | txBroadcasted | txConfirmed | txFailed =>
      cases other with
      | txBroadcasted | txConfirmed | txFailed =>
          simp [EventType.name, String.toList_inj] at hlist ⊢
          try exact hlist
      | depositDetected | depositConfirmed | depositReorged | transferRequested
      | unknown _ => cases hother
  | depositDetected | depositConfirmed | depositReorged | transferRequested
  | unknown _ => cases h

theorem reportId_inj {eventType other : EventType} (h : reports eventType = true)
    (hother : reports other = true) {transferId transferId' : Uuid} {rest rest' : String}
    (hid : reportId eventType transferId rest = reportId other transferId' rest') :
    eventType = other ∧ transferId = transferId' := by
  simp only [reportId, EventId.uuid5.injEq] at hid
  obtain ⟨htype, hkey⟩ := report_name_inj h hother hid
  have hlist := congrArg String.toList hkey
  simp only [String.toList_append, List.append_assoc] at hlist
  have hlength : transferId.str.toList.length = transferId'.str.toList.length := by
    rw [String.length_toList, String.length_toList, Uuid.str_length, Uuid.str_length]
  exact ⟨htype, Uuid.str_injective (String.toList_inj.mp (List.append_inj hlist hlength).1)⟩

/-- The event reports on the transfer, under a name of its own. -/
structure ReportsOn (eventType : EventType) (transferId : Uuid) (event : Envelope) : Prop where
  type : event.eventType = eventType
  transfer : event.payload.get? "transfer_id" = some (.str transferId.str)
  named : ∃ rest, event.eventId = reportId eventType transferId rest

/-- The event is about something else, and not named like a report. -/
structure Aside (event : Envelope) : Prop where
  type : reports event.eventType = false
  unnamed : ∀ eventType transferId rest, reports eventType = true →
    event.eventId ≠ reportId eventType transferId rest

section About

variable (scope : Scope) {record : OutgoingTransaction} {payload : Payload}

theorem newEvent_named {eventType : EventType} {producer : String} {transferId : Uuid}
    {rest : String} {correlationId : Option String} :
    (newEvent scope eventType payload producer (some (transferId.str ++ ":" ++ rest))
      correlationId).eventId = reportId eventType transferId rest := by
  have hkey : transferId.str ++ ":" ++ rest ≠ "" := by
    intro hempty
    have hlength := congrArg String.length hempty
    simp [Uuid.str_length] at hlength
  simp [newEvent, hkey, reportId]

theorem failedEvent_reportsOn {failed about : OutgoingTransaction} {wasConfirmed : Bool}
    {reason code rest : String}
    (hpayload : failurePayload failed wasConfirmed reason code = .ok payload)
    (hkey : failed.transferId = record.transferId) :
    ReportsOn .txFailed record.transferId
      (failedEvent scope about payload (record.transferId.str ++ ":" ++ rest)) := by
  refine ⟨rfl, ?_, rest, newEvent_named scope⟩
  rw [← hkey]
  exact failurePayload_transferId hpayload

theorem broadcastedEvent_reportsOn {row : OutgoingTransaction} {txHash : ChainHash}
    (hpayload : broadcastedPayload record txHash = .ok payload) :
    ReportsOn .txBroadcasted record.transferId
      (broadcastedEvent scope row record txHash payload) := by
  refine ⟨rfl, (broadcastedEvent_about scope hpayload).transfer,
    txHash.val ++ ":broadcast", ?_⟩
  rw [broadcastedEvent, String.append_assoc]
  exact newEvent_named scope

theorem txConfirmedEvent_reportsOn {confirmed : OutgoingTransaction} {txHash : ChainHash}
    {receipt : TxReceipt} (hpayload : confirmedPayload confirmed txHash receipt = .ok payload)
    (hkey : confirmed.transferId = record.transferId) :
    ReportsOn .txConfirmed record.transferId
      (txConfirmedEvent scope record txHash payload) := by
  refine ⟨rfl, (txConfirmedEvent_about scope hpayload hkey).transfer,
    txHash.val ++ ":confirmed", ?_⟩
  rw [txConfirmedEvent, String.append_assoc]
  exact newEvent_named scope

end About

/-! ## What has been reported -/

/-- A report of this type on the transfer is in the outbox. -/
def Db.reported (db : Db) (eventType : EventType) (transferId : Uuid) : Bool :=
  db.outbox.envelopes.any fun event => event.eventType = eventType &&
    event.payload.get? "transfer_id" = some (.str transferId.str)

theorem ReportsOn.counts {eventType : EventType} {transferId : Uuid} {event : Envelope}
    (h : ReportsOn eventType transferId event) (other : EventType) (transferId' : Uuid) :
    (event.eventType = other && event.payload.get? "transfer_id" =
      some (.str transferId'.str)) = decide (other = eventType ∧ transferId' = transferId) := by
  rw [h.type, h.transfer, Bool.eq_iff_iff]
  simp only [Option.some.injEq, Json.str.injEq, Bool.and_eq_true, decide_eq_true_eq]
  constructor
  · rintro ⟨rfl, hid⟩
    exact ⟨rfl, (Uuid.str_injective hid).symm⟩
  · rintro ⟨rfl, rfl⟩
    exact ⟨rfl, rfl⟩

/-- What the outbox says about the records, and what the records say about the outbox. -/
structure Db.Reports (db : Db) : Prop where
  events : ∀ event ∈ db.outbox.envelopes, Aside event ∨
    ∃ record ∈ db.outgoing.rows, ∃ eventType, reports eventType = true ∧
      ReportsOn eventType record.transferId event
  failed : ∀ record ∈ db.outgoing.rows,
    db.reported .txFailed record.transferId = record.status.terminal
  confirmed : ∀ record ∈ db.outgoing.rows, record.status = .confirmed →
    db.reported .txConfirmed record.transferId = true
  settled : ∀ record ∈ db.outgoing.rows,
    db.reported .txConfirmed record.transferId = true → record.status.settled = true
  broadcasted : ∀ record ∈ db.outgoing.rows, record.status = .broadcasted →
    db.reported .txBroadcasted record.transferId = true

theorem Db.Reports.empty (addresses : Table String Address Address.owner) :
    ({ Db.empty with addresses } : Db).Reports := by
  constructor <;> simp [Db.empty, Outbox.envelopes]

/-- A report whose id is taken has been made before. -/
theorem Db.Reports.reported_of_has {db : Db} (h : db.Reports) {eventType : EventType}
    (hreports : reports eventType = true) {transferId : Uuid} {event : Envelope}
    (hevent : ReportsOn eventType transferId event) (hhas : db.outbox.Has event.eventId) :
    db.reported eventType transferId = true := by
  obtain ⟨rest, hnamed⟩ := hevent.named
  obtain ⟨old, hold, hid⟩ := (Outbox.has_iff _ _).mp hhas
  rw [hnamed] at hid
  rcases h.events old hold with haside | ⟨record, _, other, hother, hreport⟩
  · exact (haside.unnamed eventType transferId rest hreports hid).elim
  · obtain ⟨rest', hnamed'⟩ := hreport.named
    rw [hnamed'] at hid
    obtain ⟨rfl, rfl⟩ := reportId_inj hother hreports hid
    apply List.any_eq_true.mpr
    refine ⟨old, hold, ?_⟩
    rw [hreport.counts]
    simp

/-- Whether or not its id was taken, afterwards the report is there. -/
theorem Db.Reports.reported_enqueued {db db' : Db} (h : db.Reports) {eventType : EventType}
    (hreports : reports eventType = true) {transferId : Uuid} {event : Envelope}
    (hevent : ReportsOn eventType transferId event)
    (henqueue : enqueueEvent db.outbox event = .ok db'.outbox) (other : EventType)
    (transferId' : Uuid) :
    db'.reported other transferId' = (db.reported other transferId' ||
      decide (other = eventType ∧ transferId' = transferId)) := by
  rcases enqueueEvent_cases henqueue with ⟨htaken, hsame⟩ | ⟨_, hrows⟩
  · have hbefore := h.reported_of_has hreports hevent htaken
    have hunchanged : db'.reported other transferId' = db.reported other transferId' := by
      rw [Db.reported, hsame]
      rfl
    rw [hunchanged]
    by_cases hsubject : other = eventType ∧ transferId' = transferId
    · rw [hsubject.1, hsubject.2, hbefore, Bool.true_or]
    · rw [decide_eq_false hsubject, Bool.or_false]
  · rw [Db.reported, hrows, List.any_append, List.any_cons, List.any_nil, Bool.or_false,
      hevent.counts]
    rfl

theorem Db.Reports.not_reported_of_free {db : Db} (h : db.Reports) {transferId : Uuid}
    (hfree : db.outgoing.find? transferId = none) {eventType : EventType}
    (hreports : reports eventType = true) : db.reported eventType transferId = false := by
  rw [← Bool.not_eq_true]
  intro hreported
  obtain ⟨event, hmem, hcounts⟩ := List.any_eq_true.mp hreported
  rcases h.events event hmem with haside | ⟨record, hrecord, other, _, hreport⟩
  · rw [Bool.and_eq_true, decide_eq_true_eq] at hcounts
    have hquiet := haside.type
    rw [hcounts.1, hreports] at hquiet
    cases hquiet
  · rw [hreport.counts, decide_eq_true_eq] at hcounts
    rw [Table.find?_eq_none_iff] at hfree
    exact hfree record hrecord hcounts.2.symm

/-! ## Writes -/

section Writes

variable {db db' : Db} {record record' : OutgoingTransaction} {event : Envelope}
  {eventType : EventType}

/-- One record is overwritten, and what is new in the outbox reports on it. -/
theorem Db.Reports.written (h : db.Reports)
    (hrecord : db.outgoing.find? record.transferId = some record)
    (hkey : record'.transferId = record.transferId)
    (hreplace : db'.outgoing = db.outgoing.replace record')
    (hevents : ∀ event ∈ db'.outbox.envelopes, event ∈ db.outbox.envelopes ∨
      ∃ eventType, reports eventType = true ∧ ReportsOn eventType record.transferId event)
    (hothers : ∀ eventType transferId, transferId ≠ record.transferId →
      db'.reported eventType transferId = db.reported eventType transferId)
    (hfailed : db'.reported .txFailed record.transferId = record'.status.terminal)
    (hconfirmed : record'.status = .confirmed →
      db'.reported .txConfirmed record.transferId = true)
    (hsettled : db'.reported .txConfirmed record.transferId = true →
      record'.status.settled = true)
    (hbroadcasted : record'.status = .broadcasted →
      db'.reported .txBroadcasted record.transferId = true) : db'.Reports := by
  have hfind : db.outgoing.find? record'.transferId = some record := by
    rw [hkey]
    exact hrecord
  have hmem : ∀ r, r ∈ db'.outgoing.rows ↔
      r = record' ∨ (r ∈ db.outgoing.rows ∧ r.transferId ≠ record'.transferId) := by
    intro r
    rw [hreplace]
    exact Table.mem_replace _ hfind
  have hself : record' ∈ db'.outgoing.rows := (hmem record').mpr (Or.inl rfl)
  constructor
  · intro event hevent
    rcases hevents event hevent with hold | ⟨type, hreports, hreport⟩
    · rcases h.events event hold with haside | ⟨r, hr, type, hreports, hreport⟩
      · exact Or.inl haside
      · right
        by_cases hsame : r.transferId = record'.transferId
        · exact ⟨record', hself, type, hreports, hsame ▸ hreport⟩
        · exact ⟨r, (hmem r).mpr (Or.inr ⟨hr, hsame⟩), type, hreports, hreport⟩
    · exact Or.inr ⟨record', hself, type, hreports, hkey.symm ▸ hreport⟩
  · intro r hr
    rcases (hmem r).mp hr with rfl | ⟨hold, hne⟩
    · rw [hkey]
      exact hfailed
    · rw [hothers _ _ (hkey ▸ hne)]
      exact h.failed r hold
  · intro r hr hstatus
    rcases (hmem r).mp hr with rfl | ⟨hold, hne⟩
    · rw [hkey]
      exact hconfirmed hstatus
    · rw [hothers _ _ (hkey ▸ hne)]
      exact h.confirmed r hold hstatus
  · intro r hr hreported
    rcases (hmem r).mp hr with rfl | ⟨hold, hne⟩
    · rw [hkey] at hreported
      exact hsettled hreported
    · rw [hothers _ _ (hkey ▸ hne)] at hreported
      exact h.settled r hold hreported
  · intro r hr hstatus
    rcases (hmem r).mp hr with rfl | ⟨hold, hne⟩
    · rw [hkey]
      exact hbroadcasted hstatus
    · rw [hothers _ _ (hkey ▸ hne)]
      exact h.broadcasted r hold hstatus

theorem Db.Reports.saved (h : db.Reports)
    (hrecord : db.outgoing.find? record.transferId = some record)
    (hkey : record'.transferId = record.transferId)
    (hfailed : record'.status.terminal = record.status.terminal)
    (hconfirmed : record'.status = .confirmed → record.status = .confirmed)
    (hsettled : record.status.settled = true → record'.status.settled = true)
    (hbroadcasted : record'.status = .broadcasted → record.status = .broadcasted) :
    (db.saved record').Reports := by
  have hmem := Table.mem_of_find? hrecord
  have hreplace : (db.saved record').outgoing = db.outgoing.replace record' := rfl
  apply h.written hrecord hkey hreplace (fun _ hevent => Or.inl hevent) (fun _ _ _ => rfl)
  · rw [hfailed]
    exact h.failed record hmem
  · exact fun hstatus => h.confirmed record hmem (hconfirmed hstatus)
  · exact fun hreported => hsettled (h.settled record hmem hreported)
  · exact fun hstatus => h.broadcasted record hmem (hbroadcasted hstatus)

theorem Db.Reports.announced (h : db.Reports)
    (hrecord : db.outgoing.find? record.transferId = some record)
    (hkey : record'.transferId = record.transferId) (hreports : reports eventType = true)
    (hevent : ReportsOn eventType record.transferId event)
    (hfailed : record'.status.terminal =
      (record.status.terminal || decide (eventType = .txFailed)))
    (hconfirmed : record'.status = .confirmed →
      record.status = .confirmed ∨ eventType = .txConfirmed)
    (hsettled : record.status.settled = true ∨ eventType = .txConfirmed →
      record'.status.settled = true)
    (hbroadcasted : record'.status = .broadcasted →
      record.status = .broadcasted ∨ eventType = .txBroadcasted)
    (hannounces : db.Announces record' event db') : db'.Reports := by
  obtain ⟨outbox, henqueue, rfl⟩ := hannounces
  have hmem := Table.mem_of_find? hrecord
  have hreported : ∀ other transferId,
      Db.reported { db with outgoing := db.outgoing.replace record', outbox } other transferId =
        (db.reported other transferId ||
          decide (other = eventType ∧ transferId = record.transferId)) :=
    h.reported_enqueued hreports hevent henqueue
  apply h.written hrecord hkey rfl
  · intro other hother
    rcases enqueueEvent_cases henqueue with ⟨_, hsame⟩ | ⟨_, hrows⟩
    · dsimp only at hother
      rw [hsame] at hother
      exact Or.inl hother
    · dsimp only at hother
      rw [hrows] at hother
      rcases List.mem_append.mp hother with hold | hnew
      · exact Or.inl hold
      · rw [List.mem_singleton.mp hnew]
        exact Or.inr ⟨eventType, hreports, hevent⟩
  · intro other transferId hne
    rw [hreported]
    simp [hne]
  · rw [hreported, h.failed record hmem, hfailed]
    simp [eq_comm]
  · intro hstatus
    rw [hreported]
    rcases hconfirmed hstatus with hold | rfl
    · rw [h.confirmed record hmem hold, Bool.true_or]
    · simp
  · intro hnow
    rw [hreported, Bool.or_eq_true, decide_eq_true_eq] at hnow
    apply hsettled
    rcases hnow with hold | ⟨htype, _⟩
    · exact Or.inl (h.settled record hmem hold)
    · exact Or.inr htype.symm
  · intro hstatus
    rw [hreported]
    rcases hbroadcasted hstatus with hold | rfl
    · rw [h.broadcasted record hmem hold, Bool.true_or]
    · simp

/-- A record is failed, and its failure reported. -/
theorem Db.Reports.failing (h : db.Reports)
    (hrecord : db.outgoing.find? record.transferId = some record)
    (hkey : record'.transferId = record.transferId)
    (hterminal : record'.status.terminal = true)
    {scope : Scope} {about : OutgoingTransaction} {wasConfirmed : Bool}
    {reason code rest : String} {payload : Payload}
    (hpayload : failurePayload record' wasConfirmed reason code = .ok payload)
    (hannounces : db.Announces record'
      (failedEvent scope about payload (record.transferId.str ++ ":" ++ rest)) db') :
    db'.Reports := by
  have hreports : reports .txFailed = true := rfl
  apply h.announced hrecord hkey hreports (failedEvent_reportsOn scope hpayload hkey)
    ?_ ?_ ?_ ?_ hannounces
  · rw [hterminal]
    simp
  · intro hstatus
    rw [hstatus] at hterminal
    cases hterminal
  · intro _
    revert hterminal
    cases record'.status <;> simp [TxStatus.terminal, TxStatus.settled]
  · intro hstatus
    rw [hstatus] at hterminal
    cases hterminal

theorem Db.Reports.inserted (h : db.Reports)
    {outgoing : Table Uuid OutgoingTransaction OutgoingTransaction.transferId}
    (hinsert : db.outgoing.insert? record = some outgoing)
    (hcreated : record.status = .created) : ({ db with outgoing } : Db).Reports := by
  have hfree := Table.insert?_free hinsert
  have hmem : ∀ r, r ∈ outgoing.rows ↔ r ∈ db.outgoing.rows ∨ r = record :=
    fun r => Table.mem_insert? hinsert
  constructor
  · intro event hevent
    rcases h.events event hevent with haside | ⟨r, hr, type, hreports, hreport⟩
    · exact Or.inl haside
    · exact Or.inr ⟨r, (hmem r).mpr (Or.inl hr), type, hreports, hreport⟩
  · intro r hr
    rcases (hmem r).mp hr with hold | rfl
    · exact h.failed r hold
    · have hnone : db.reported .txFailed r.transferId = false :=
        h.not_reported_of_free hfree rfl
      rw [hcreated]
      exact hnone
  · intro r hr hstatus
    rcases (hmem r).mp hr with hold | rfl
    · exact h.confirmed r hold hstatus
    · rw [hcreated] at hstatus
      cases hstatus
  · intro r hr hreported
    rcases (hmem r).mp hr with hold | rfl
    · exact h.settled r hold hreported
    · have hnone : db.reported .txConfirmed r.transferId = false :=
        h.not_reported_of_free hfree rfl
      have hsome : db.reported .txConfirmed r.transferId = true := hreported
      rw [hnone] at hsome
      cases hsome
  · intro r hr hstatus
    rcases (hmem r).mp hr with hold | rfl
    · exact h.broadcasted r hold hstatus
    · rw [hcreated] at hstatus
      cases hstatus

/-- Events about other things do not matter. -/
theorem Db.Reports.aside (h : db.Reports) (houtgoing : db'.outgoing = db.outgoing)
    {added : List Envelope} (houtbox : db'.outbox.envelopes = db.outbox.envelopes ++ added)
    (haside : ∀ event ∈ added, Aside event) : db'.Reports := by
  have hreported : ∀ eventType transferId, reports eventType = true →
      db'.reported eventType transferId = db.reported eventType transferId := by
    intro eventType transferId hreports
    have hnone : (added.any fun event => event.eventType = eventType &&
        event.payload.get? "transfer_id" = some (.str transferId.str)) = false := by
      rw [List.any_eq_false]
      intro event hevent hcounts
      rw [Bool.and_eq_true, decide_eq_true_eq] at hcounts
      have hquiet := (haside event hevent).type
      rw [hcounts.1, hreports] at hquiet
      cases hquiet
    rw [Db.reported, houtbox, List.any_append, hnone, Bool.or_false]
    rfl
  constructor
  · intro event hevent
    rw [houtbox] at hevent
    rw [houtgoing]
    rcases List.mem_append.mp hevent with hold | hnew
    · exact h.events event hold
    · exact Or.inl (haside event hnew)
  · rw [houtgoing]
    intro record hrecord
    rw [hreported _ _ rfl]
    exact h.failed record hrecord
  · rw [houtgoing]
    intro record hrecord hstatus
    rw [hreported _ _ rfl]
    exact h.confirmed record hrecord hstatus
  · rw [houtgoing]
    intro record hrecord hnow
    rw [hreported _ _ rfl] at hnow
    exact h.settled record hrecord hnow
  · rw [houtgoing]
    intro record hrecord hstatus
    rw [hreported _ _ rfl]
    exact h.broadcasted record hrecord hstatus

/-- No record is written, and what is new in the outbox is about other things. -/
structure Quiet (db db' : Db) : Prop where
  outgoing : db'.outgoing = db.outgoing
  processed : db'.processedEvents = db.processedEvents
  outbox : ∃ added, db'.outbox.envelopes = db.outbox.envelopes ++ added ∧
    ∀ event ∈ added, Aside event

theorem Quiet.refl (db : Db) : Quiet db db := ⟨rfl, rfl, [], by simp, by simp⟩

theorem Quiet.trans {db db' db'' : Db} (h : Quiet db db') (h' : Quiet db' db'') :
    Quiet db db'' := by
  obtain ⟨added, hadded, haside⟩ := h.outbox
  obtain ⟨added', hadded', haside'⟩ := h'.outbox
  refine ⟨h'.outgoing.trans h.outgoing, h'.processed.trans h.processed, added ++ added',
    ?_, ?_⟩
  · rw [hadded', hadded, List.append_assoc]
  · intro event hevent
    rcases List.mem_append.mp hevent with hold | hnew
    · exact haside event hold
    · exact haside' event hnew

theorem Quiet.enqueued (houtgoing : db'.outgoing = db.outgoing)
    (hprocessed : db'.processedEvents = db.processedEvents)
    (henqueue : enqueueEvent db.outbox event = .ok db'.outbox) (haside : Aside event) :
    Quiet db db' := by
  refine ⟨houtgoing, hprocessed, ?_⟩
  rcases enqueueEvent_cases henqueue with ⟨_, hsame⟩ | ⟨_, hrows⟩
  · exact ⟨[], by rw [hsame, List.append_nil], by simp⟩
  · refine ⟨[event], hrows, ?_⟩
    intro other hother
    rw [List.mem_singleton.mp hother]
    exact haside

theorem Db.Reports.quiet (h : db.Reports) (hquiet : Quiet db db') : db'.Reports := by
  obtain ⟨added, hadded, haside⟩ := hquiet.outbox
  exact h.aside hquiet.outgoing hadded haside

/-! ## Every write of the two loops -/

section Steps

variable {settings : Settings} {scope : Scope}

theorem answered_reports (h : db.Reports) {answer : Except ChainError ChainHash}
    (hrecord : db.outgoing.find? record.transferId = some record)
    (hpending : record.status = .pending)
    (hanswered : Answered settings scope record db record answer db') : db'.Reports := by
  cases hanswered with
  | closed txHash hstatus => exact h
  | broadcast txHash hopen payload hpayload db' hannounces =>
      have hkey : (record.broadcastedAs scope.now txHash).transferId = record.transferId := rfl
      have hstatus : (record.broadcastedAs scope.now txHash).status = .broadcasted := rfl
      apply h.announced hrecord hkey rfl (broadcastedEvent_reportsOn scope hpayload)
        ?_ ?_ ?_ ?_ hannounces
      · rw [hstatus, hpending]
        rfl
      · simp [hstatus]
      · simp [hpending, TxStatus.settled]
      · simp
  | confirmed answer habandoned hstatus => exact h
  | failed answer habandoned hopen reason code payload hpayload db' hannounces =>
      have hkey : (record.failedBroadcast reason).transferId = record.transferId := rfl
      exact h.failing hrecord hkey rfl hpayload hannounces
  | retried answer hretriable reason =>
      have hkey : (record.retried scope.now record.attempts reason).transferId =
          record.transferId := rfl
      have hstatus : (record.retried scope.now record.attempts reason).status = .pending := rfl
      apply h.saved hrecord hkey
      · rw [hstatus, hpending]
      · simp [hstatus]
      · simp [hpending, TxStatus.settled]
      · simp [hstatus]

/-- The name of the report that a confirmed transaction disappeared. -/
def reorgKey (record : OutgoingTransaction) : String :=
  failureKey record "CHAIN_REORG" ++ ":" ++
    match record.blockHash with
    | none => "None"
    | some hash => hash.val

/-- The record is reorged, and the report of it offered to the outbox. -/
def ReportsReorg (record : OutgoingTransaction) (db db' : Db) : Prop :=
  ∃ bound payload, failurePayload record.reorged true reorgReason "CHAIN_REORG" =
    .ok payload ∧ db.Announces record.reorged
      (failedEvent bound record payload (reorgKey record)) db'

theorem ReportsReorg.reports (hreorg : ReportsReorg record db db') (h : db.Reports)
    (hrecord : db.outgoing.find? record.transferId = some record) : db'.Reports := by
  obtain ⟨bound, payload, hpayload, hannounces⟩ := hreorg
  have hkey : record.reorged.transferId = record.transferId := rfl
  rw [reorgKey, failureKey, String.append_assoc, String.append_assoc] at hannounces
  exact h.failing hrecord hkey rfl hpayload hannounces

theorem checked_reports (h : db.Reports) {head : Nat} {seen : SeenRecord}
    {receipt : Option TxReceipt}
    (hrecord : db.outgoing.find? record.transferId = some record)
    (hstatus : record.status = .broadcasted ∨ record.status = .confirmed)
    (hseen : record.seen = some seen)
    (hreorg : receipt = none → seen.status = .confirmed → ReportsReorg record db db')
    (hchecked : Checked settings scope head seen db record receipt db') : db'.Reports := by
  have hopen : record.status.terminal = false := by
    rcases hstatus with hstatus | hstatus
    · rw [hstatus]
      rfl
    · rw [hstatus]
      rfl
  have hbroadcasted : seen.status ≠ .confirmed → record.status = .broadcasted := by
    obtain ⟨txHash, _, rfl⟩ := Option.map_eq_some_iff.mp hseen
    exact fun hnot => hstatus.resolve_right hnot
  cases hchecked with
  | reverted receipt hreverted hnot payload hpayload db' hannounces =>
      have hkey : ((record.minedIn head receipt).failedFor revertReason).transferId =
          record.transferId := rfl
      exact h.failing hrecord hkey rfl hpayload hannounces
  | confirmed receipt hripe payload hpayload db' hannounces =>
      have hkey : (record.minedIn head receipt).confirmed.transferId = record.transferId := rfl
      have hconfirmed : (record.minedIn head receipt).confirmed.status = .confirmed := rfl
      apply h.announced hrecord hkey rfl (txConfirmedEvent_reportsOn scope hpayload hkey)
        ?_ ?_ ?_ ?_ hannounces
      · rw [hconfirmed, hopen]
        rfl
      · simp
      · simp [hconfirmed, TxStatus.settled]
      · simp [hconfirmed]
  | mined receipt hreverted hripe =>
      have hkey : (record.minedIn head receipt).transferId = record.transferId := rfl
      exact h.saved hrecord hkey rfl (fun hsame => hsame) (fun hsame => hsame)
        fun hsame => hsame
  | reorged hconfirmed payload hpayload dedupeKey db' hannounces =>
      exact (hreorg rfl hconfirmed).reports h hrecord
  | waiting hnot hstuck => exact h
  | requeued hnot hstuck hattempts =>
      have hkey : (record.requeued scope.now).transferId = record.transferId := rfl
      have hrequeued : (record.requeued scope.now).status = .pending := rfl
      apply h.saved hrecord hkey
      · rw [hrequeued, hbroadcasted hnot]
        rfl
      · simp [hrequeued]
      · simp [hbroadcasted hnot, TxStatus.settled]
      · simp [hrequeued]
  | abandoned hnot hstuck hattempts reason payload hpayload db' hannounces =>
      have hkey : (record.failedFor reason).transferId = record.transferId := rfl
      exact h.failing hrecord hkey rfl hpayload hannounces

theorem dispatched_reports (h : db.Reports) {envelope : Envelope}
    (hdispatched : Dispatched scope envelope db db') : db'.Reports := by
  have hclaimed : ∀ processedEvents, ({ db with processedEvents } : Db).Reports :=
    fun _ => ⟨h.events, h.failed, h.confirmed, h.settled, h.broadcasted⟩
  cases hdispatched with
  | duplicate => exact h
  | ignored processedEvents => exact hclaimed processedEvents
  | accepted processedEvents hrequested db' haccepted =>
      cases haccepted with
      | duplicate proposed hproposed htaken => exact hclaimed processedEvents
      | accepted proposed hproposed hknown outgoing hinsert =>
          exact (hclaimed processedEvents).inserted hinsert
            (proposedOutgoing_untouched hproposed).status
      | unknown proposed hproposed hunknown outgoing hinsert failed hpayload db' hannounces =>
          have hcreated := (proposedOutgoing_untouched hproposed).status
          have hinserted := (hclaimed processedEvents).inserted hinsert hcreated
          have hstored : outgoing.find? proposed.transferId = some proposed :=
            (Table.find?_insert? hinsert _).trans (if_pos rfl)
          have hkey : (proposed.failedFor unknownAddressReason).transferId =
              proposed.transferId := rfl
          exact hinserted.failing hstored hkey rfl hpayload hannounces

theorem claimDue_reports (h : db.Reports) (now limit : Nat) :
    (claimDue now limit db).2.Reports := by
  have hrows : ∀ r ∈ (claimDue now limit db).2.outgoing.rows, ∃ record ∈ db.outgoing.rows,
      r.transferId = record.transferId ∧ (r.status = record.status ∨
        (r.status = .pending ∧ record.status.settled = false)) := by
    intro r hr
    obtain ⟨record, hrecord, rfl⟩ := List.mem_map.mp hr
    refine ⟨record, hrecord, ?_⟩
    split
    next hdue =>
      refine ⟨rfl, Or.inr ⟨rfl, ?_⟩⟩
      have hclaimable := (mem_dueRecords hdue).2
      revert hclaimable
      unfold OutgoingTransaction.due
      cases record.status <;> simp [TxStatus.settled]
    next => exact ⟨rfl, Or.inl rfl⟩
  have hsame : ∀ eventType transferId, (claimDue now limit db).2.reported eventType transferId =
      db.reported eventType transferId := fun _ _ => rfl
  constructor
  · intro event hevent
    rcases h.events event hevent with haside | ⟨record, hrecord, type, hreports, hreport⟩
    · exact Or.inl haside
    · have hkey : ∀ record : OutgoingTransaction,
          (if record ∈ dueRecords now limit db then record.claimed now else record).transferId =
            record.transferId := by
        intro record
        split <;> rfl
      exact Or.inr ⟨_, List.mem_map_of_mem hrecord, type, hreports,
        (hkey record).symm ▸ hreport⟩
  · intro r hr
    obtain ⟨record, hrecord, hkey, hstatus⟩ := hrows r hr
    rw [hsame, hkey, h.failed record hrecord]
    rcases hstatus with hstatus | ⟨hpending, hopen⟩
    · rw [hstatus]
    · rw [hpending]
      revert hopen
      cases record.status <;> simp [TxStatus.settled, TxStatus.terminal]
  · intro r hr hconfirmed
    obtain ⟨record, hrecord, hkey, hstatus⟩ := hrows r hr
    rw [hsame, hkey]
    rcases hstatus with hstatus | ⟨hpending, _⟩
    · exact h.confirmed record hrecord (hstatus.symm.trans hconfirmed)
    · rw [hpending] at hconfirmed
      cases hconfirmed
  · intro r hr hreported
    obtain ⟨record, hrecord, hkey, hstatus⟩ := hrows r hr
    rw [hsame, hkey] at hreported
    have hsettled := h.settled record hrecord hreported
    rcases hstatus with hstatus | ⟨_, hopen⟩
    · rw [hstatus]
      exact hsettled
    · rw [hopen] at hsettled
      cases hsettled
  · intro r hr hbroadcasted
    obtain ⟨record, hrecord, hkey, hstatus⟩ := hrows r hr
    rw [hsame, hkey]
    rcases hstatus with hstatus | ⟨hpending, _⟩
    · exact h.broadcasted record hrecord (hstatus.symm.trans hbroadcasted)
    · rw [hpending] at hbroadcasted
      cases hbroadcasted

end Steps

end Writes

/-! ## The deposits -/

theorem depositEvent_aside (scope : Scope) {eventType : EventType} (payload : Payload)
    (txHash : ChainHash) (key : String) (htype : eventType = .depositDetected ∨
      eventType = .depositConfirmed ∨ eventType = .depositReorged) :
    Aside (depositEvent scope eventType payload txHash key) := by
  refine ⟨by rcases htype with rfl | rfl | rfl <;> rfl, ?_⟩
  intro other transferId rest hreports hid
  by_cases hkey : key = ""
  · simp [depositEvent, newEvent, hkey, reportId] at hid
  · simp only [depositEvent, newEvent, hkey, if_false, reportId, EventId.uuid5.injEq] at hid
    have hlist := congrArg String.toList hid
    cases other with
    | txBroadcasted | txConfirmed | txFailed =>
        rcases htype with rfl | rfl | rfl <;> simp [EventType.name] at hlist
    | depositDetected | depositConfirmed | depositReorged | transferRequested
    | unknown _ => cases hreports

section Deposits

variable {adapter : ChainAdapter σ} {settings : Settings} {db db' : Db}

theorem UpsertedAll.quiet {scope : Scope} {newId : TransferLog → Uuid}
    {logs : List TransferLog} (h : UpsertedAll scope newId logs db db') : Quiet db db' := by
  induction h with
  | nil db => exact .refl db
  | cons hfirst hrest ih =>
      apply Quiet.trans ?_ ih
      cases hfirst with
      | inserted proposed hproposed deposits hinsert payload hpayload outbox houtbox =>
          exact .enqueued rfl rfl houtbox (depositEvent_aside scope payload _ _ (Or.inl rfl))
      | revived proposed hproposed stored hstored hreorged payload hpayload outbox houtbox =>
          exact .enqueued rfl rfl houtbox (depositEvent_aside scope payload _ _ (Or.inl rfl))
      | known proposed hproposed stored hstored hlive => exact .refl _

theorem Reverified.quiet {scope : Scope} {head : Nat} {d : Deposit}
    {found : Option (Nat × ChainHash)}
    (h : Reverified settings scope head db d found db') : Quiet db db' := by
  cases h with
  | reorged payload hpayload outbox houtbox =>
      exact .enqueued rfl rfl houtbox (depositEvent_aside scope _ _ _ (Or.inr (Or.inr rfl)))
  | confirmed blockNumber blockHash hripe payload hpayload outbox houtbox =>
      exact .enqueued rfl rfl houtbox (depositEvent_aside scope _ _ _ (Or.inr (Or.inl rfl)))
  | moved blockNumber blockHash hripe => exact ⟨rfl, rfl, [], by simp, by simp⟩

theorem DepositTask.run_quiet (task : DepositTask σ) (db : Db) :
    Quiet db (task.run adapter settings db) := by
  cases task with
  | issueAddress ownerRef network generated =>
      apply commit_preserves (I := Quiet db) (.refl db)
      apply (getOrCreateAddress_ensures ownerRef network generated db).mono
      · rintro _ db' ⟨addresses, rfl, _⟩
        exact ⟨rfl, rfl, [], by simp, by simp⟩
      · exact fun _ h => h
  | scan scope newId calls =>
      show Quiet db (scanOnce adapter settings scope newId calls db).2
      rcases scanOnce_cases adapter settings scope newId calls db with
        ⟨hsame, _⟩ | ⟨plan, mid, _, hmid, hresult⟩
      · rw [hsame]
        exact .refl db
      · rw [hresult]
        have hcursor : Quiet mid (mid.moveCursor (plan.state settings)) :=
          ⟨rfl, rfl, [], by simp [Db.moveCursor], by simp⟩
        exact hmid.quiet.trans hcursor
  | watch scope headCall calls =>
      show Quiet db (watchDepositsOnce adapter settings scope headCall calls db).2
      rcases watchDepositsOnce_cases adapter settings scope headCall calls db with
        hsame | ⟨head, _, _, hresult⟩
      · rw [hsame]
        exact .refl db
      · rw [hresult]
        apply visitAll_preserves (I := Quiet db)
        · intro key _ before hbefore
          apply hbefore.trans
          rcases reverify_cases adapter settings scope (calls key) head key before with
            hraised | ⟨_, hgone⟩ | ⟨d, found, verdict, db', _, _, hreverified, hreturned⟩
          · rw [hraised]
            exact .refl before
          · rw [hgone]
            exact .refl before
          · rw [hreturned]
            exact hreverified.quiet
        · exact .refl db

end Deposits

/-! ## The two loops -/

theorem checkTx_reorg (settings : Settings) (scope : Scope) (head : Nat) (transferId : Uuid)
    (seen : SeenRecord) (db : Db) :
    Ensures (checkTx settings scope head transferId seen none) db
      (fun _ db' => seen.status = .confirmed →
        ∀ record, db.outgoing.find? transferId = some record → ReportsReorg record db db')
      fun _ => True := by
  unfold checkTx
  apply Ensures.query_bind
  cases hfind : db.outgoing.find? transferId with
  | none =>
      apply Ensures.pure
      intro _ record hrecord
      cases hrecord
  | some record =>
      dsimp only
      split
      next hseen =>
        unfold markOutgoingReorged
        apply Ensures.bind (announceFailure_ensures _ record.reorged true reorgReason
          "CHAIN_REORG" _ db)
        rintro _ db' ⟨payload, hpayload, hannounces⟩
        apply Ensures.pure
        intro _ other hother
        cases hother
        exact ⟨_, payload, hpayload, hannounces⟩
      next hseen =>
        apply (handleStuck_ensures settings _ head seen record hseen db).mono
        · exact fun _ _ _ hconfirmed => (hseen hconfirmed).elim
        · exact fun _ _ => trivial

namespace WorkerPair

theorem step_reorg (settings : Settings) (w : WorkerPair) (scope : Scope)
    {transferId : Uuid} {rest : List Uuid} {seen : SeenRecord}
    (hlisted : w.listed = transferId :: rest)
    (hphase : w.phase = .told seen none) (hconfirmed : seen.status = .confirmed)
    {record : OutgoingTransaction} (hrecord : w.db.outgoing.find? transferId = some record) :
    (step settings (.check scope) w).db = w.db ∨
      ReportsReorg record w.db (step settings (.check scope) w).db := by
  simp only [step, hlisted, hphase]
  cases hcommit : commit (checkTx settings scope w.head transferId seen none) w.db with
  | mk result db =>
      cases result with
      | ok outcome =>
          exact Or.inr ((checkTx_reorg settings scope w.head transferId seen w.db).commit_ok
            hcommit hconfirmed record hrecord)
      | error e => exact Or.inl (commit_error hcommit)

theorem step_reports {settings : Settings} {w : WorkerPair} (horderly : w.Orderly)
    (h : w.db.Reports) (action : PairStep) : (step settings action w).db.Reports := by
  have hstep := step_stepped settings action w
  generalize hresult : step settings action w = w' at hstep ⊢
  cases hstep with
  | idle => exact h
  | requested scope envelope db hdispatched => exact dispatched_reports h hdispatched
  | claimed now limit hfree => exact claimDue_reports h now limit
  | answered answer => exact h
  | recorded scope row rest answer record db hclaimed hrecord hanswered =>
      obtain ⟨hrow, hpending⟩ := horderly.claimed row (by
        rw [hclaimed]
        exact List.mem_cons_self)
      rw [hrow, Option.some.injEq] at hrecord
      subst hrecord
      exact answered_reports h hrow hpending hanswered
  | missing scope row rest hclaimed hnone => exact h
  | raised scope row rest answer e hclaimed hanswer hraised => exact h
  | crashed => exact h
  | looked action head listed phase hlooked => exact h
  | checked scope transferId rest seen receipt record db hlisted hphase hrecord hchecked =>
      obtain ⟨hstatus, hseen⟩ := horderly.checking hlisted hphase hrecord
      have hkey := Table.key_of_find? hrecord
      subst hkey
      by_cases hreorg : receipt = none ∧ seen.status = .confirmed
      · obtain ⟨rfl, hconfirmed⟩ := hreorg
        have hcases := step_reorg settings w scope hlisted hphase hconfirmed
          hrecord
        rw [hresult] at hcases
        rcases hcases with hsame | hreports
        · rw [hsame]
          exact h
        · exact hreports.reports h hrecord
      · apply checked_reports h hrecord hstatus hseen ?_ hchecked
        exact fun hnone hconfirmed => (hreorg ⟨hnone, hconfirmed⟩).elim

end WorkerPair

end CryptoWallet.Blockchain
