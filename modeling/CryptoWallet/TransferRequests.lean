import CryptoWallet.Pipeline
import CryptoWallet.TransferAgreement

/-!
# No transfer is lost between the services

The request for a transfer is in the outbox as soon as the transfer is there.  The
consumer of the service takes it whenever it comes, and has a record ever after.
-/

namespace CryptoWallet

open Tx
open Wallet (Transfer namedId requestedPayload)

variable {σ : Type}

namespace Blockchain

/-! ## What the consumer has handled -/

/-- There is a record of the transfer which the payload names. -/
def Db.Holds (db : Db) (payload : Payload) : Prop :=
  ∃ record ∈ db.outgoing.rows, namedId payload = some record.transferId

/-- No record is deleted. -/
def Keeps (db db' : Db) : Prop :=
  ∀ record ∈ db.outgoing.rows, ∃ record' ∈ db'.outgoing.rows,
    record'.transferId = record.transferId

theorem Keeps.of_same {db db' : Db} (houtgoing : db'.outgoing = db.outgoing) :
    Keeps db db' := by
  intro record hrecord
  rw [houtgoing]
  exact ⟨record, hrecord, rfl⟩

theorem Keeps.of_written {db db' : Db} {record : OutgoingTransaction}
    (hrecord : db.outgoing.find? record.transferId = some record)
    (hwritten : db'.outgoing = db.outgoing ∨ ∃ record', record.SameRequest record' ∧
      db'.outgoing = db.outgoing.replace record') : Keeps db db' := by
  rcases hwritten with hsame | ⟨record', hrequest, hreplace⟩
  · exact .of_same hsame
  · have hfind : db.outgoing.find? record'.transferId = some record := by
      rw [hrequest.transferId]
      exact hrecord
    intro row hrow
    simp only [hreplace, Table.mem_replace _ hfind]
    by_cases hkey : row.transferId = record'.transferId
    · exact ⟨record', Or.inl rfl, hkey.symm⟩
    · exact ⟨row, Or.inr ⟨hrow, hkey⟩, rfl⟩

theorem Db.Holds.kept {db db' : Db} {payload : Payload} (h : db.Holds payload)
    (hkept : Keeps db db') : db'.Holds payload := by
  obtain ⟨record, hrecord, hid⟩ := h
  obtain ⟨record', hrecord', hsame⟩ := hkept record hrecord
  exact ⟨record', hrecord', by rw [hid, hsame]⟩

theorem proposed_namedId {now : Nat} {payload : Payload} {correlationId : String}
    {record : OutgoingTransaction}
    (h : proposedOutgoing now payload correlationId = .ok record) :
    namedId payload = some record.transferId := by
  unfold proposedOutgoing at h
  obtain ⟨idValue, hidValue, h⟩ := bind_eq_ok.mp h
  obtain ⟨transferId, htransferId, h⟩ := bind_eq_ok.mp h
  have hid : record.transferId = transferId := by
    simp only [bind_eq_ok] at h
    obtain ⟨_, _, _, _, _, _, _, _, _, _, _, _, _, _, _, _, _, _, h⟩ := h
    split at h
    · split at h
      · cases h
        rfl
      · cases h
    · cases h
  rw [namedId, hidValue, hid]
  simp [htransferId, Except.toOption]

section Frames

variable {scope : Scope} {db db' : Db}

theorem Db.Announces.processed {record : OutgoingTransaction} {event : Envelope}
    (h : db.Announces record event db') : db'.processedEvents = db.processedEvents := by
  obtain ⟨outbox, _, rfl⟩ := h
  rfl

theorem Accepted.processed {payload : Payload} {correlationId : String}
    (h : Accepted scope payload correlationId db db') :
    db'.processedEvents = db.processedEvents := by
  cases h with
  | duplicate => rfl
  | accepted => rfl
  | unknown _ _ _ outgoing _ _ _ db' hannounces => exact hannounces.processed

theorem Accepted.holds {payload : Payload} {correlationId : String}
    (h : Accepted scope payload correlationId db db') : db'.Holds payload := by
  cases h with
  | duplicate record hproposed htaken =>
      rw [Table.insert?_eq_none_iff] at htaken
      obtain ⟨old, hold⟩ := Option.isSome_iff_exists.mp htaken
      refine ⟨old, Table.mem_of_find? hold, ?_⟩
      rw [Table.key_of_find? hold]
      exact proposed_namedId hproposed
  | accepted record hproposed hknown outgoing hinsert =>
      exact ⟨record, (Table.mem_insert? hinsert).mpr (Or.inr rfl),
        proposed_namedId hproposed⟩
  | unknown record hproposed hunknown outgoing hinsert failed hpayload db' hannounces =>
      obtain ⟨outbox, _, rfl⟩ := hannounces
      have hstored : outgoing.find? (record.failedFor unknownAddressReason).transferId =
          some record := (Table.find?_insert? hinsert _).trans (if_pos rfl)
      refine ⟨_, (Table.mem_replace _ hstored).mpr (Or.inl rfl), ?_⟩
      rw [proposed_namedId hproposed]
      rfl

theorem Accepted.keeps {payload : Payload} {correlationId : String}
    (h : Accepted scope payload correlationId db db') : Keeps db db' := by
  cases h with
  | duplicate => exact .of_same rfl
  | accepted record hproposed hknown outgoing hinsert =>
      exact fun row hrow => ⟨row, (Table.mem_insert? hinsert).mpr (Or.inl hrow), rfl⟩
  | unknown record hproposed hunknown outgoing hinsert failed hpayload db' hannounces =>
      obtain ⟨outbox, _, rfl⟩ := hannounces
      have hstored : outgoing.find? (record.failedFor unknownAddressReason).transferId =
          some record := (Table.find?_insert? hinsert _).trans (if_pos rfl)
      intro row hrow
      have hold : row ∈ outgoing.rows := (Table.mem_insert? hinsert).mpr (Or.inl hrow)
      simp only [Table.mem_replace _ hstored]
      by_cases hkey : row.transferId = (record.failedFor unknownAddressReason).transferId
      · exact ⟨_, Or.inl rfl, hkey.symm⟩
      · exact ⟨row, Or.inr ⟨hold, hkey⟩, rfl⟩

theorem WorkerPair.stepped_keeps {settings : Settings} {w w' : WorkerPair}
    {action : PairStep} (h : Stepped settings w action w') : Keeps w.db w'.db := by
  cases h with
  | requested scope envelope db hdispatched =>
      cases hdispatched with
      | duplicate => exact .of_same rfl
      | ignored processedEvents => exact .of_same rfl
      | accepted processedEvents hrequested db' haccepted => exact haccepted.keeps
  | recorded scope row rest answer record db hclaimed hrecord hanswered =>
      have hkey := Table.key_of_find? hrecord
      rw [← hkey] at hrecord
      apply Keeps.of_written hrecord
      exact hanswered.written.imp (fun h => h) fun ⟨record', hrequest, _, hreplace⟩ =>
        ⟨record', hrequest, hreplace⟩
  | checked scope transferId rest seen receipt record db hlisted hphase hrecord hchecked =>
      have hkey := Table.key_of_find? hrecord
      rw [← hkey] at hrecord
      exact .of_written hrecord hchecked.written
  | claimed now limit hfree =>
      intro row hrow
      refine ⟨_, List.mem_map_of_mem hrow, ?_⟩
      split <;> rfl
  | idle | answered answer | missing scope row rest hclaimed hnone
  | raised scope row rest answer e hclaimed hanswer hraised | crashed
  | looked action head listed phase hlooked => exact .of_same rfl

theorem WorkerPair.stepped_processed {settings : Settings} {w w' : WorkerPair}
    {action : PairStep} (h : Stepped settings w action w') (hdelivers : action.delivers = false) :
    w'.db.processedEvents = w.db.processedEvents := by
  cases h with
  | requested scope envelope db hdispatched => cases hdelivers
  | recorded scope row rest answer record db hclaimed hrecord hanswered =>
      cases hanswered with
      | closed | confirmed | retried => rfl
      | broadcast _ _ _ _ db hannounces => exact hannounces.processed
      | failed _ _ _ _ _ _ _ db hannounces => exact hannounces.processed
  | checked scope transferId rest seen receipt record db hlisted hphase hrecord hchecked =>
      cases hchecked with
      | reverted _ _ _ _ _ db hannounces => exact hannounces.processed
      | confirmed _ _ _ _ db hannounces => exact hannounces.processed
      | reorged _ _ _ _ db hannounces => exact hannounces.processed
      | abandoned _ _ _ _ _ _ db hannounces => exact hannounces.processed
      | mined | waiting | requeued => rfl
  | claimed now limit hfree => rfl
  | idle | answered answer | missing scope row rest hclaimed hnone
  | raised scope row rest answer e hclaimed hanswer hraised | crashed
  | looked action head listed phase hlooked => rfl

end Frames

/-- What one delivery of a request can do. -/
structure Takes (envelope : Envelope) (db db' : Db) : Prop where
  recorded : ∀ eventId, db'.Recorded eventId → db.Recorded eventId ∨ eventId = envelope.eventId
  holds : envelope.eventType = .transferRequested →
    db.Recorded envelope.eventId ∨ db'.Holds envelope.payload

theorem claimEvent_recorded (envelope : Envelope) (db : Db) :
    Ensures (claimEvent envelope) db
      (fun claimed db' => (claimed = false ∧ db.Recorded envelope.eventId ∧ db' = db) ∨
        ∃ processedEvents, claimed = true ∧ db' = { db with processedEvents } ∧
          db.processedEvents.insert? ⟨consumerName, envelope.eventId, envelope.eventType⟩ =
            some processedEvents) fun _ => True := by
  unfold claimEvent
  split
  · exact Ensures.throw trivial
  · apply Ensures.orRaise_bind ?_ fun _ _ => trivial
    intro _ _
    apply Ensures.query_bind
    split
    next htaken =>
      rw [Table.insert?_eq_none_iff] at htaken
      exact Ensures.pure (Or.inl ⟨rfl, htaken, rfl⟩)
    next processedEvents hinsert =>
      apply Ensures.modifyDb_bind
      exact Ensures.pure (Or.inr ⟨processedEvents, rfl, rfl, hinsert⟩)

theorem dispatch_takes (scope : Scope) (envelope : Envelope) (db : Db) :
    Ensures (dispatch scope envelope) db (fun _ db' => Takes envelope db db')
      fun _ => True := by
  unfold dispatch
  apply Ensures.bind (claimEvent_recorded envelope db)
  rintro claimed db' (⟨rfl, hrecorded, rfl⟩ | ⟨processedEvents, rfl, rfl, hinsert⟩)
  · exact Ensures.pure ⟨fun _ h => Or.inl h, fun _ => Or.inl hrecorded⟩
  · have hclaimed : ∀ db' : Db, db'.processedEvents = processedEvents → ∀ eventId,
        db'.Recorded eventId → db.Recorded eventId ∨ eventId = envelope.eventId := by
      intro db' hsame eventId hrecorded
      rw [Db.Recorded, hsame, Table.find?_insert? hinsert] at hrecorded
      split at hrecorded
      next hkey => exact Or.inr (congrArg Prod.snd hkey)
      next => exact Or.inl hrecorded
    rw [if_pos rfl]
    split
    next hrequested =>
      apply (acceptTransferRequest_ensures _ _ _ _).mono ?_ fun _ _ => trivial
      intro _ db' haccepted
      exact ⟨hclaimed db' haccepted.processed, fun _ => Or.inr haccepted.holds⟩
    next hother =>
      exact Ensures.pure ⟨hclaimed _ rfl, fun hrequested => (hother hrequested).elim⟩

/-! ## A request is taken -/

/-- The terms of the transfer fit the columns of the record. -/
structure Sendable (t : Transfer) : Prop where
  network : Wallet.Fits 32 t.network
  asset : Wallet.Fits 16 t.asset
  fromAddress : Wallet.Fits 64 t.fromAddress
  toAddress : Wallet.Fits 64 t.toAddress
  amount : t.amount < 10 ^ 78

theorem requiredColumn_str {limit : Nat} {text : String} (h : Wallet.Fits limit text) :
    requiredColumn limit (.str text) = .ok ⟨text, h⟩ := by
  have hbound : bindText (.str text) = .ok (some text) := by
    simp [bindText, bindString, h.2, Except.map]
  rw [requiredColumn, hbound]
  exact varchar_ok h.1 h.2

theorem proposedOutgoing_requested {t : Transfer} {asset : Asset} (hsendable : Sendable t)
    (hasset : asset.symbol = t.asset) (now : Nat) {correlationId : String}
    {stored : Varchar 64} (hstored : varchar 64 correlationId = .ok stored) :
    ∃ record, proposedOutgoing now (requestedPayload t asset) correlationId = .ok record ∧
      record.correlationId = some stored := by
  have hunits : ((t.amount.toNat : Nat) : Int) = t.amount :=
    Int.toNat_of_nonneg (le_of_lt t.amountPositive)
  have hamount : pyIntOf (.str (toString t.amount)) = .ok t.amount := by
    have hlimit := hsendable.amount
    rw [← hunits, pyIntOf, Json.toInt?, pyInt_toString (by omega)]
  have hid : uuidOf (.str t.id.str) = .ok t.id := by
    simp [uuidOf, Json.toStr, Uuid.parse?_str]
  have hfits : t.amount.natAbs < 10 ^ 78 := by
    have hlimit := hsendable.amount
    have hpositive := t.amountPositive
    omega
  have hsymbol : Wallet.Fits 16 asset.symbol := hasset ▸ hsendable.asset
  have hidItem : (requestedPayload t asset).item "transfer_id" = .ok (.str t.id.str) := rfl
  have hfromItem : (requestedPayload t asset).item "from_address" =
    .ok (.str t.fromAddress) := rfl
  have htoItem : (requestedPayload t asset).item "to_address" = .ok (.str t.toAddress) := rfl
  have hunitsItem : (requestedPayload t asset).item "amount_units" =
    .ok (.str (toString t.amount)) := rfl
  have hnetworkItem : (requestedPayload t asset).getD "network" (.str "BSC") =
    .str t.network := rfl
  have hassetItem : (requestedPayload t asset).getD "asset" (.str "USDT") =
    .str asset.symbol := rfl
  simp only [proposedOutgoing, hidItem, hfromItem, htoItem, hunitsItem, hnetworkItem,
    hassetItem, bind, Except.bind, hid, hamount, requiredColumn_str hsendable.network,
    requiredColumn_str hsymbol, requiredColumn_str hsendable.fromAddress,
    requiredColumn_str hsendable.toAddress, hstored, dif_pos hfits, dif_pos t.amountPositive]
  exact ⟨_, rfl, rfl⟩

/-- The text can be bound to the column for correlation ids. -/
def Correlates (text : String) : Prop := ∃ stored, varchar 64 text = .ok stored

theorem newEvent_correlates {scope : Scope} {eventType : EventType} {payload : Payload}
    {producer : String} {dedupeKey correlationId : Option String}
    (hown : ∀ id, correlationId = some id → Correlates id)
    (hscope : ∀ id, scope.correlationId = some id → Correlates id)
    (hfresh : Correlates scope.freshCorrelationId) :
    Correlates (newEvent scope eventType payload producer dedupeKey
      correlationId).correlationId := by
  unfold newEvent
  dsimp only
  split
  next id _ hid => exact hown _ (Option.filter_eq_some_iff.mp hid).1
  next id _ hid => exact hscope _ (Option.filter_eq_some_iff.mp hid).1
  next => exact hfresh

theorem correlationScope_correlates {scope : Scope} {correlationId : String}
    (hown : Correlates correlationId) (hfresh : Correlates scope.freshCorrelationId) :
    ∀ id, (correlationScope scope (some correlationId)).correlationId = some id →
      Correlates id := by
  intro id hid
  simp only [correlationScope] at hid
  split at hid
  next id' hid' =>
    have hsame := (Option.filter_eq_some_iff.mp hid').1
    rw [Option.some.injEq] at hsame hid
    rw [← hid, ← hsame]
    exact hown
  next => exact Option.some.inj hid ▸ hfresh

theorem enqueueEvent_ok {outbox : Outbox} {envelope : Envelope}
    (hname : Correlates envelope.eventType.name)
    (hcorrelation : Correlates envelope.correlationId) :
    ∃ outbox', enqueueEvent outbox envelope = .ok outbox' := by
  obtain ⟨name, hname⟩ := hname
  obtain ⟨correlationId, hcorrelation⟩ := hcorrelation
  rw [enqueueEvent, hname, hcorrelation]
  exact ⟨_, rfl⟩

section Accepts

variable {t : Transfer} {asset : Asset} {scope : Scope} {correlationId : String}

theorem announceFailure_accepts (record : OutgoingTransaction) (wasConfirmed : Bool)
    {reason : String} (code dedupeKey : String) (hasset : (getAsset record.asset.val).isSome = true)
    (hreason : bindString reason = .ok reason)
    (hown : ∀ id, record.correlationId = some id → Correlates id.val)
    (hscope : ∀ id, scope.correlationId = some id → Correlates id)
    (hfresh : Correlates scope.freshCorrelationId) (db : Db) :
    Ensures (announceFailure scope record wasConfirmed reason code dedupeKey) db
      (fun _ _ => True) fun _ => False := by
  obtain ⟨asset, hasset⟩ := Option.isSome_iff_exists.mp hasset
  unfold announceFailure
  have hpayload : ∃ payload, failurePayload record wasConfirmed reason code = .ok payload := by
    rw [failurePayload, hasset]
    exact ⟨_, rfl⟩
  obtain ⟨payload, hpayload⟩ := hpayload
  apply (Returns.orRaise hpayload db).ensures_bind
  apply (Returns.orRaise hreason db).ensures_bind
  unfold saveOutgoing
  apply Ensures.modifyDb_bind
  unfold enqueue
  apply Ensures.query_bind
  have hname : Correlates EventType.txFailed.name := ⟨_, varchar_ok (by decide) (by decide)⟩
  have hcorrelation : Correlates (newEvent scope .txFailed payload producer (some dedupeKey)
      (record.correlationId.map Subtype.val)).correlationId := by
    apply newEvent_correlates ?_ hscope hfresh
    intro id hid
    obtain ⟨stored, hstored, rfl⟩ := Option.map_eq_some_iff.mp hid
    exact hown stored hstored
  obtain ⟨outbox', henqueue⟩ := enqueueEvent_ok hname hcorrelation
  apply (Returns.orRaise henqueue _).ensures_bind
  exact Ensures.modifyDb trivial

theorem acceptTransferRequest_accepts (scope : Scope) {payload : Payload}
    {record : OutgoingTransaction}
    (hproposed : proposedOutgoing scope.now payload correlationId = .ok record)
    (hasset : (getAsset record.asset.val).isSome = true)
    (hscope : ∀ id, scope.correlationId = some id → Correlates id)
    (hfresh : Correlates scope.freshCorrelationId) (db : Db) :
    Ensures (acceptTransferRequest scope payload correlationId) db
      (fun _ _ => True) fun _ => False := by
  have hreason : bindString unknownAddressReason = .ok unknownAddressReason := by decide
  unfold acceptTransferRequest
  apply (Returns.orRaise hproposed db).ensures_bind
  apply Ensures.query_bind
  apply Ensures.query_bind
  cases db.outgoing.insert? record with
  | none => exact Ensures.pure trivial
  | some outgoing =>
      apply Ensures.modifyDb_bind
      split
      · exact Ensures.pure trivial
      · apply Ensures.bind (announceFailure_accepts (record.failedFor unknownAddressReason)
          false "UNKNOWN_SENDING_ADDRESS" _ hasset hreason ?_ hscope hfresh
          { db with outgoing })
        · exact fun _ _ _ => Ensures.pure trivial
        · intro id _
          exact ⟨_, varchar_ok id.property.1 id.property.2⟩

/-- The consumer does not fail on a request which fits. -/
theorem dispatch_accepts {envelope : Envelope} (hsendable : Sendable t)
    (hrequested : t.RequestedBy envelope) (hfresh : Correlates scope.freshCorrelationId)
    (db : Db) :
    Ensures (dispatch scope envelope) db (fun _ _ => True) fun _ => False := by
  have hid := hrequested.eventId
  have hcorrelation : Correlates envelope.correlationId := hrequested.correlation
  obtain ⟨wallet, asset, hasset, hsymbol, hevent⟩ := hrequested.request
  have htype : envelope.eventType = .transferRequested := by rw [hevent]; rfl
  have hpayload : envelope.payload = requestedPayload t asset := by rw [hevent]; rfl
  have hclaimed : Ensures (claimEvent envelope) db (fun _ _ => True) fun _ => False := by
    unfold claimEvent
    rw [hid, htype]
    dsimp only
    have hname : Correlates EventType.transferRequested.name :=
      ⟨_, varchar_ok (by decide) (by decide)⟩
    obtain ⟨name, hname⟩ := hname
    apply (Returns.orRaise hname db).ensures_bind
    apply Ensures.query_bind
    split
    · exact Ensures.pure trivial
    · apply Ensures.modifyDb_bind
      exact Ensures.pure trivial
  unfold dispatch
  apply hclaimed.bind
  intro claimed db' _
  rw [htype]
  obtain ⟨stored, hstored⟩ := hcorrelation
  obtain ⟨record, hproposed, _⟩ := proposedOutgoing_requested hsendable hsymbol
    (correlationScope scope (some envelope.correlationId)).now hstored
  have horders := proposed_orders hproposed hsymbol hsendable.network.1 hsendable.asset.1
    hsendable.fromAddress.1 hsendable.toAddress.1
  -- the payload is kept folded
  rw [← hpayload] at hproposed
  split
  · have hknown : (getAsset record.asset.val).isSome = true := by
      rw [horders.asset, hasset]
      rfl
    exact acceptTransferRequest_accepts (correlationScope scope (some envelope.correlationId))
      hproposed hknown (correlationScope_correlates ⟨stored, hstored⟩ hfresh) hfresh db'
  · exact Ensures.pure trivial

end Accepts

end Blockchain

/-! ## Every run -/

namespace Platform

/-- The service has a record of every request it has handled. -/
structure Asked (w : Platform) : Prop where
  inv : Inv w
  sent : ∀ eventId, w.service.db.Recorded eventId → w.wallet.outbox.Has eventId
  holds : ∀ event ∈ w.wallet.outbox.envelopes, w.service.db.Recorded event.eventId →
    w.service.db.Holds event.payload

theorem Asked.start : Asked .start where
  inv := .start
  sent := by
    simp [Platform.start, Blockchain.WorkerPair.start, Blockchain.Db.empty,
      Blockchain.Db.Recorded]
  holds := by simp [Platform.start, Wallet.Db.empty, Outbox.envelopes]

variable {adapter : ChainAdapter σ} {settings : Blockchain.Settings}
  {config : Wallet.Config} {w : Platform}

theorem Asked.wallet (h : Asked w) {wallet : Wallet.Db} (hinv : Inv { w with wallet })
    (hadded : ∃ added, wallet.outbox.envelopes = w.wallet.outbox.envelopes ++ added) :
    Asked { w with wallet } := by
  obtain ⟨added, houtbox⟩ := hadded
  refine ⟨hinv, ?_, ?_⟩
  · intro eventId hrecorded
    obtain ⟨event, hmem, hid⟩ := (Outbox.has_iff _ _).mp (h.sent eventId hrecorded)
    apply (Outbox.has_iff _ _).mpr
    refine ⟨event, ?_, hid⟩
    rw [houtbox]
    exact List.mem_append_left _ hmem
  · intro event hmem hrecorded
    rw [houtbox] at hmem
    rcases List.mem_append.mp hmem with hold | hnew
    · exact h.holds event hold hrecorded
    · obtain ⟨old, hold, hid⟩ := (Outbox.has_iff _ _).mp (h.sent _ hrecorded)
      have hnodup := wallet.outbox.nodup_eventIds
      rw [houtbox, List.map_append, List.nodup_append] at hnodup
      exact (hnodup.2.2 _ (List.mem_map_of_mem hold) _ (List.mem_map_of_mem hnew) hid).elim

theorem Asked.service (h : Asked w) {service : Blockchain.WorkerPair}
    (hinv : Inv { w with service })
    (hprocessed : service.db.processedEvents = w.service.db.processedEvents)
    (hkept : Blockchain.Keeps w.service.db service.db) : Asked { w with service } := by
  have hrecorded : ∀ eventId, service.db.Recorded eventId ↔ w.service.db.Recorded eventId := by
    intro eventId
    rw [Blockchain.Db.Recorded, Blockchain.Db.Recorded, hprocessed]
  refine ⟨hinv, ?_, ?_⟩
  · intro eventId hnow
    exact h.sent eventId ((hrecorded eventId).mp hnow)
  · intro event hmem hnow
    exact (h.holds event hmem ((hrecorded event.eventId).mp hnow)).kept hkept

/-- The state of the service after the delivery of an event. -/
theorem request_takes (settings : Blockchain.Settings) (scope : Scope) (envelope : Envelope)
    (service : Blockchain.WorkerPair) :
    (Blockchain.WorkerPair.step settings (.request scope envelope) service).db = service.db ∨
      Blockchain.Takes envelope service.db
        (Blockchain.WorkerPair.step settings (.request scope envelope) service).db := by
  apply commit_preserves (I := fun db => db = service.db ∨
    Blockchain.Takes envelope service.db db) (Or.inl rfl)
  exact (Blockchain.dispatch_takes scope envelope service.db).mono
    (fun _ _ htakes => Or.inr htakes) fun _ h => h

theorem Asked.requested (h : Asked w) {event : Envelope}
    (hevent : event ∈ w.wallet.outbox.envelopes) (scope : Scope)
    (hinv : Inv { w with
      service := Blockchain.WorkerPair.step settings (.request scope event) w.service }) :
    Asked { w with
      service := Blockchain.WorkerPair.step settings (.request scope event) w.service } := by
  have hkept := Blockchain.WorkerPair.stepped_keeps
    (Blockchain.WorkerPair.step_stepped settings (.request scope event) w.service)
  rcases request_takes settings scope event w.service with hsame | htakes
  · exact h.service hinv (by rw [hsame]) hkept
  · refine ⟨hinv, ?_, ?_⟩
    · intro eventId hnow
      rcases htakes.recorded eventId hnow with hbefore | rfl
      · exact h.sent eventId hbefore
      · exact (Outbox.has_iff _ _).mpr ⟨event, hevent, rfl⟩
    · intro other hmem hnow
      rcases htakes.recorded _ hnow with hbefore | hid
      · exact (h.holds other hmem hbefore).kept hkept
      · have hsame := Outbox.eq_of_eventId hmem hevent hid
        rw [hsame]
        obtain ⟨t, _, hrequested⟩ := h.inv.placed.requested event hevent
        rcases htakes.holds hrequested.type with hbefore | hholds
        · exact (h.holds event hevent hbefore).kept hkept
        · exact hholds

theorem Asked.step (h : Asked w) (action : PlatformStep σ) :
    Asked (step adapter settings config action w) := by
  have hinv : Inv (Platform.step adapter settings config action w) := h.inv.step action
  cases action with
  | wallet s =>
      obtain ⟨added, houtbox, _⟩ :=
        (Wallet.step_proceeds h.inv.placed config s.property).events
      exact h.wallet hinv ⟨added, houtbox⟩
  | worker action =>
      have hstep := Blockchain.WorkerPair.step_stepped settings action.val w.service
      exact h.service hinv (Blockchain.WorkerPair.stepped_processed hstep action.property)
        (Blockchain.WorkerPair.stepped_keeps hstep)
  | deposits task =>
      have hquiet : Blockchain.Quiet w.service.db (task.run adapter settings w.service.db) :=
        task.run_quiet w.service.db
      exact h.service hinv hquiet.processed (.of_same hquiet.outgoing)
  | relay relaySettings now publishError => exact h.service hinv rfl (.of_same rfl)
  | request scope eventId =>
      simp only [Platform.step] at hinv ⊢
      cases hrow : w.wallet.outbox.find? eventId with
      | none => exact h
      | some row =>
          rw [hrow] at hinv
          exact h.requested (List.mem_map_of_mem (Table.mem_of_find? hrow)) scope hinv
  | deliver scope eventId =>
      simp only [Platform.step] at hinv ⊢
      cases hrow : w.service.db.outbox.find? eventId with
      | none => exact h
      | some row =>
          rw [hrow] at hinv
          apply h.wallet hinv
          have hheard := Wallet.step_heard h.inv.sound config scope row.envelope
          generalize Wallet.step config _ w.wallet = wallet at hheard ⊢
          cases hheard with
          | idle => exact ⟨[], by rw [List.append_nil]⟩
          | heeded hfresh wallet hrecorded hheeds =>
              exact ⟨[], by rw [hheeds.outbox, List.append_nil]⟩

theorem run_asked (actions : List (PlatformStep σ)) :
    Asked (runSteps (step adapter settings config) .start actions) :=
  runSteps_preserves (I := Asked) (fun _ action h => h.step action) .start actions

theorem Inv.sendable (h : Inv w) {t : Transfer} (ht : t ∈ w.wallet.transfers.rows)
    (hamount : t.amount < 10 ^ 78) : Blockchain.Sendable t := by
  obtain ⟨sender, hsender, recipient, hrecipient, hkey, hfrom, hkey', hto⟩ :=
    h.placed.addressed t ht
  have hstored := h.placed.stored sender hsender
  have hstored' := h.placed.stored recipient hrecipient
  simp only [Wallet.WalletRow.key, Prod.mk.injEq] at hkey
  constructor
  · exact hkey.2.1 ▸ hstored.network
  · exact hkey.2.2 ▸ hstored.asset
  · exact hfrom ▸ hstored.address
  · exact hto ▸ hstored'.address
  · exact hamount

/-- The delivery of a request returns and leaves a record, be it the first time or not. -/
theorem Asked.held (h : Asked w) {event : Envelope}
    (hevent : event ∈ w.wallet.outbox.envelopes) {t : Transfer}
    (hrequested : t.RequestedBy event) (hsendable : Blockchain.Sendable t) {scope : Scope}
    (hfresh : Blockchain.Correlates scope.freshCorrelationId) :
    (∃ outcome, (commit (Blockchain.dispatch scope event) w.service.db).1 = .ok outcome) ∧
      (Blockchain.WorkerPair.step settings (.request scope event) w.service).db.Holds
        event.payload := by
  have hkept := Blockchain.WorkerPair.stepped_keeps
    (Blockchain.WorkerPair.step_stepped settings (.request scope event) w.service)
  have hboth := (Blockchain.dispatch_takes scope event w.service.db).and
    (Blockchain.dispatch_accepts hsendable hrequested hfresh w.service.db)
  have hreturns : Ensures (Blockchain.dispatch scope event) w.service.db
      (fun _ db' => Blockchain.Takes event w.service.db db') fun _ => False :=
    hboth.mono (fun _ _ hpost => hpost.1) fun _ hraised => hraised.2
  obtain ⟨outcome, db', hcommit, htakes⟩ := hreturns.commit_returns
  refine ⟨⟨outcome, by rw [hcommit]⟩, ?_⟩
  have hdb : (Blockchain.WorkerPair.step settings (.request scope event) w.service).db =
      db' := by
    simp only [Blockchain.WorkerPair.step, hcommit]
  rw [hdb] at hkept ⊢
  rcases htakes.holds hrequested.type with hbefore | hholds
  · exact (h.holds event hevent hbefore).kept hkept
  · exact hholds

/-- In every run, the request for a transfer waits in the outbox of the wallet, and
whenever it is delivered, for the first time or again, the delivery returns and the service
has a record of it, with the terms of the transfer. -/
theorem requests_are_accepted (actions : List (PlatformStep σ)) :
    ∀ t ∈ (runSteps (step adapter settings config) .start actions).wallet.transfers.rows,
      t.amount < 10 ^ 78 →
      ∃ event ∈ (runSteps (step adapter settings config) .start
          actions).wallet.outbox.envelopes,
        t.RequestedBy event ∧
        ∀ scope : Scope, Blockchain.Correlates scope.freshCorrelationId →
          (∃ outcome, (commit (Blockchain.dispatch scope event)
            (runSteps (step adapter settings config) .start actions).service.db).1 =
              .ok outcome) ∧
          ∃ record ∈ (step adapter settings config (.request scope event.eventId)
              (runSteps (step adapter settings config) .start
                actions)).service.db.outgoing.rows,
            Orders t record := by
  intro t ht hamount
  have hasked : Asked (runSteps (step adapter settings config) .start actions) :=
    run_asked actions
  generalize runSteps (step adapter settings config) .start actions = w at ht hasked ⊢
  obtain ⟨event, hevent, hrequested⟩ := hasked.inv.placed.asked t ht
  refine ⟨event, hevent, hrequested, ?_⟩
  intro scope hfresh
  have hinv : Inv (step adapter settings config (.request scope event.eventId) w) :=
    hasked.inv.step _
  obtain ⟨row, hrow, henvelope⟩ := List.mem_map.mp hevent
  have hfind : w.wallet.outbox.find? event.eventId = some row := by
    rw [← henvelope]
    exact w.wallet.outbox.find?_of_mem hrow
  obtain ⟨hreturns, hholds⟩ := hasked.held hevent hrequested
    (hasked.inv.sendable ht hamount) hfresh
  refine ⟨hreturns, ?_⟩
  simp only [Platform.step, hfind] at hinv ⊢
  rw [henvelope] at hinv ⊢
  obtain ⟨record, hrecord, hnamed⟩ := hholds
  refine ⟨record, hrecord, ?_⟩
  obtain ⟨t', ht', horders⟩ := hinv.orders record hrecord
  have hid : namedId event.payload = some t.id := by
    obtain ⟨_, asset, _, _, rfl⟩ := hrequested.request
    have hitem : (requestedPayload t asset).item "transfer_id" = .ok (.str t.id.str) := rfl
    change namedId (requestedPayload t asset) = some t.id
    simp [namedId, hitem, uuidOf, Json.toStr, Uuid.parse?_str, Except.toOption]
  rw [hid, Option.some.injEq] at hnamed
  have hsame : t' = t :=
    w.wallet.transfers.eq_of_mem_of_key_eq ht' ht (horders.transferId.symm.trans hnamed.symm)
  exact hsame ▸ horders

/-- A request which has been handled, and is delivered again. -/
theorem request_is_accepted :
    ∃ t ∈ (runSteps (step SettlementWorld.endingAdapter .standard Wallet.spentConfig) .start
        (sentOnce.take 10)).wallet.transfers.rows,
      ∃ event ∈ (runSteps (step SettlementWorld.endingAdapter .standard Wallet.spentConfig)
          .start (sentOnce.take 10)).wallet.outbox.envelopes,
        (∃ outcome, (commit (Blockchain.dispatch Blockchain.someScope event)
          (runSteps (step SettlementWorld.endingAdapter .standard Wallet.spentConfig) .start
            (sentOnce.take 10)).service.db).1 = .ok outcome) ∧
        ∃ record ∈ (step SettlementWorld.endingAdapter .standard Wallet.spentConfig
            (.request Blockchain.someScope event.eventId)
            (runSteps (step SettlementWorld.endingAdapter .standard Wallet.spentConfig) .start
              (sentOnce.take 10))).service.db.outgoing.rows,
          Orders t record := by
  have htransfer : ∃ t ∈ (runSteps (step SettlementWorld.endingAdapter .standard
      Wallet.spentConfig) .start (sentOnce.take 10)).wallet.transfers.rows,
        t.amount < 10 ^ 78 := by
    decide +kernel
  obtain ⟨t, ht, hamount⟩ := htransfer
  obtain ⟨event, hevent, _, haccepted⟩ := requests_are_accepted _ t ht hamount
  have hfresh : Blockchain.Correlates Blockchain.someScope.freshCorrelationId :=
    ⟨_, varchar_ok (by decide) (by decide)⟩
  exact ⟨t, ht, event, hevent, haccepted Blockchain.someScope hfresh⟩

end Platform

end CryptoWallet
