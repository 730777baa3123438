import CryptoWallet.Platform

/-!
# The two services agree on the transfers

What a transfer has come to is what the wallet has heard about it, and what there is to
hear is what the record of the service says.  So the two agree once every report has
been delivered.
-/

namespace CryptoWallet

open Tx
open Blockchain (OutgoingTransaction ReportsOn TxStatus)
open Wallet (Heard Heeds Placed Proceeds Transfer TransferStatus namedId reports)

variable {σ : Type}

/-! ## Statuses -/

namespace Wallet

/-- The status goes with the types of reports which were heard. -/
def TransferStatus.Reflects (status : TransferStatus) (heard : EventType → Bool) : Prop :=
  if heard .txFailed then status = .failed
  else if heard .txConfirmed then status = .confirmed
  else if heard .txBroadcasted then status = .broadcasted
  else status = .created ∨ status = .processing

section Reflects

variable {status : TransferStatus} {heard heard' : EventType → Bool}

theorem TransferStatus.Reflects.congr (h : status.Reflects heard)
    (hsame : ∀ eventType, reports eventType = true → heard' eventType = heard eventType) :
    status.Reflects heard' := by
  unfold Reflects at h ⊢
  rw [hsame .txFailed rfl, hsame .txConfirmed rfl, hsame .txBroadcasted rfl]
  exact h

theorem TransferStatus.Reflects.unheard
    (hnone : ∀ eventType, reports eventType = true → heard eventType = false)
    (hstatus : status = .created ∨ status = .processing) : status.Reflects heard := by
  unfold Reflects
  rw [hnone .txFailed rfl, hnone .txConfirmed rfl, hnone .txBroadcasted rfl]
  exact hstatus

theorem TransferStatus.Reflects.processing (h : TransferStatus.Reflects .created heard) :
    TransferStatus.Reflects .processing heard := by
  unfold Reflects at h
  split at h
  · cases h
  · split at h
    · cases h
    · split at h
      · cases h
      · simp_all [Reflects]

/-- One more report is heard. -/
theorem TransferStatus.Reflects.after {eventType : EventType} (h : status.Reflects heard)
    (hheard : ∀ other, reports other = true →
      heard' other = (heard other || decide (other = eventType))) :
    (status.after eventType).Reflects heard' := by
  unfold Reflects at h ⊢
  rw [hheard .txFailed rfl, hheard .txConfirmed rfl, hheard .txBroadcasted rfl]
  cases eventType with
  | txFailed => simp [TransferStatus.after]
  | txConfirmed =>
      cases hfailed : heard .txFailed with
      | true => simp_all [TransferStatus.after, TransferStatus.isOpen]
      | false =>
          rw [hfailed] at h
          cases status <;> simp_all [TransferStatus.after, TransferStatus.isOpen]
  | txBroadcasted =>
      cases hfailed : heard .txFailed with
      | true => simp_all [TransferStatus.after, TransferStatus.isOpen]
      | false =>
          rw [hfailed] at h
          cases hconfirmed : heard .txConfirmed with
          | true => simp_all [TransferStatus.after, TransferStatus.isOpen]
          | false =>
              rw [hconfirmed] at h
              cases status <;> simp_all [TransferStatus.after, TransferStatus.isOpen]
  | depositDetected | depositConfirmed | depositReorged | transferRequested | unknown _ =>
      simpa [TransferStatus.after] using h

end Reflects

end Wallet

/-! ## What the wallet has heard -/

theorem Blockchain.ReportsOn.namedId {eventType : EventType} {transferId : Uuid}
    {event : Envelope} (h : ReportsOn eventType transferId event) :
    Wallet.namedId event.payload = some transferId := by
  simp [Wallet.namedId, Payload.item, h.transfer, uuidOf, Json.toStr, Uuid.parse?_str,
    Except.toOption]

theorem Outbox.eq_of_eventId {outbox : Outbox} {event event' : Envelope}
    (h : event ∈ outbox.envelopes) (h' : event' ∈ outbox.envelopes)
    (hid : event.eventId = event'.eventId) : event = event' :=
  List.inj_on_of_nodup_map outbox.nodup_eventIds h h' hid

namespace Platform

/-- The wallet has handled a report of this type on the transfer. -/
def heard (w : Platform) (transferId : Uuid) (eventType : EventType) : Bool :=
  w.service.db.outbox.envelopes.any fun event => event.eventType = eventType &&
    namedId event.payload = some transferId && w.wallet.Recorded event.eventId

theorem heard_iff {w : Platform} {transferId : Uuid} {eventType : EventType} :
    w.heard transferId eventType = true ↔ ∃ event ∈ w.service.db.outbox.envelopes,
      event.eventType = eventType ∧ namedId event.payload = some transferId ∧
        w.wallet.Recorded event.eventId := by
  simp [heard, and_assoc]

/-- What the wallet has recorded was in the outbox, and its transfers go with it. -/
structure Hears (w : Platform) : Prop where
  inv : Inv w
  sent : ∀ eventId, w.wallet.Recorded eventId → w.service.db.outbox.Has eventId
  reflects : ∀ t ∈ w.wallet.transfers.rows, t.status.Reflects (w.heard t.id)

theorem Hears.start : Hears .start where
  inv := .start
  sent := by simp [Platform.start, Wallet.Db.empty, Wallet.Db.Recorded]
  reflects := by simp [Platform.start, Wallet.Db.empty]

variable {w : Platform}

theorem Inv.unheard (h : Inv w) {transferId : Uuid}
    (hfree : w.wallet.transfers.find? transferId = none) (eventType : EventType)
    (hreports : Wallet.reports eventType = true) : w.heard transferId eventType = false := by
  rw [← Bool.not_eq_true, heard_iff]
  rintro ⟨event, hmem, rfl, hnamed, _⟩
  rcases h.reports.events event hmem with haside | ⟨record, hrecord, type, _, hreport⟩
  · rw [haside.type] at hreports
    cases hreports
  · rw [hreport.namedId, Option.some.injEq] at hnamed
    obtain ⟨t, ht, horders⟩ := h.orders record hrecord
    rw [Table.find?_eq_none_iff] at hfree
    exact hfree t ht (horders.transferId.symm.trans hnamed)

theorem Hears.recorded_iff (h : Hears w) {event : Envelope} {added : List Envelope}
    {service : Blockchain.WorkerPair}
    (houtbox : service.db.outbox.envelopes = w.service.db.outbox.envelopes ++ added)
    (hmem : event ∈ added) : ¬w.wallet.Recorded event.eventId := by
  intro hrecorded
  obtain ⟨old, hold, hid⟩ := (Outbox.has_iff _ _).mp (h.sent _ hrecorded)
  have hnodup := service.db.outbox.nodup_eventIds
  rw [houtbox, List.map_append, List.nodup_append] at hnodup
  exact hnodup.2.2 _ (List.mem_map_of_mem hold) _ (List.mem_map_of_mem hmem) hid

/-- New events have not been heard. -/
theorem Hears.service (h : Hears w) {service : Blockchain.WorkerPair}
    (hinv : Inv { w with service })
    (hadded : ∃ added, service.db.outbox.envelopes = w.service.db.outbox.envelopes ++ added) :
    Hears { w with service } := by
  obtain ⟨added, houtbox⟩ := hadded
  have hheard : ∀ transferId eventType, ({ w with service } : Platform).heard transferId
      eventType = w.heard transferId eventType := by
    intro transferId eventType
    have hnew : added.any (fun event => event.eventType = eventType &&
        namedId event.payload = some transferId && w.wallet.Recorded event.eventId) =
          false := by
      rw [List.any_eq_false]
      intro event hmem
      simp [h.recorded_iff houtbox hmem]
    rw [heard, heard, houtbox, List.any_append, hnew, Bool.or_false]
  refine ⟨hinv, ?_, ?_⟩
  · intro eventId hrecorded
    obtain ⟨event, hmem, hid⟩ := (Outbox.has_iff _ _).mp (h.sent eventId hrecorded)
    apply (Outbox.has_iff _ _).mpr
    refine ⟨event, ?_, hid⟩
    rw [houtbox]
    exact List.mem_append_left _ hmem
  · intro t ht
    exact (h.reflects t ht).congr fun eventType _ => hheard t.id eventType

theorem Hears.proceeds (h : Hears w) {wallet : Wallet.Db} (hinv : Inv { w with wallet })
    (hproceeds : Proceeds w.wallet wallet) : Hears { w with wallet } := by
  have hheard : ∀ transferId eventType, ({ w with wallet } : Platform).heard transferId
      eventType = w.heard transferId eventType := by
    intro transferId eventType
    rw [Bool.eq_iff_iff, heard_iff, heard_iff]
    simp only [hproceeds.recorded]
  refine ⟨hinv, ?_, ?_⟩
  · intro eventId hrecorded
    exact h.sent eventId ((hproceeds.recorded eventId).mp hrecorded)
  · intro t' ht'
    rcases hproceeds.rows t' ht' with ⟨t, ht, hterms, hstatus⟩ | ⟨hcreated, hfree, _⟩
    · rw [hterms.id]
      have hold := (h.reflects t ht).congr fun eventType _ => hheard t.id eventType
      rcases hstatus with hsame | ⟨hcreated, hprocessing⟩
      · rw [hsame]
        exact hold
      · rw [hprocessing]
        rw [hcreated] at hold
        exact hold.processing
    · apply TransferStatus.Reflects.unheard ?_ (Or.inl hcreated)
      intro eventType hreports
      rw [hheard]
      exact h.inv.unheard hfree eventType hreports

theorem heard_delivered {event : Envelope} (hevent : event ∈ w.service.db.outbox.envelopes)
    {wallet : Wallet.Db}
    (hrecorded : ∀ eventId, wallet.Recorded eventId ↔
      w.wallet.Recorded eventId ∨ eventId = event.eventId)
    (transferId : Uuid) (eventType : EventType) :
    ({ w with wallet } : Platform).heard transferId eventType =
      (w.heard transferId eventType || decide (eventType = event.eventType ∧
        namedId event.payload = some transferId)) := by
  rw [Bool.eq_iff_iff, Bool.or_eq_true, decide_eq_true_eq, heard_iff, heard_iff]
  constructor
  · rintro ⟨other, hmem, htype, hnamed, hother⟩
    rcases (hrecorded other.eventId).mp hother with hbefore | hnow
    · exact Or.inl ⟨other, hmem, htype, hnamed, hbefore⟩
    · have hsame := Outbox.eq_of_eventId hmem hevent hnow
      rw [hsame] at htype hnamed
      exact Or.inr ⟨htype.symm, hnamed⟩
  · rintro (⟨other, hmem, htype, hnamed, hbefore⟩ | ⟨htype, hnamed⟩)
    · exact ⟨other, hmem, htype, hnamed, (hrecorded _).mpr (Or.inl hbefore)⟩
    · exact ⟨event, hevent, htype.symm, hnamed, (hrecorded _).mpr (Or.inr rfl)⟩

theorem Hears.delivered (h : Hears w) {event : Envelope}
    (hevent : event ∈ w.service.db.outbox.envelopes) {wallet : Wallet.Db}
    (hinv : Inv { w with wallet }) (hheard : Heard event w.wallet wallet) :
    Hears { w with wallet } := by
  cases hheard with
  | idle => exact h
  | heeded hfresh wallet hrecorded hheeds =>
      have hheard := heard_delivered hevent hrecorded
      refine ⟨hinv, ?_, ?_⟩
      · intro eventId hnow
        rcases (hrecorded eventId).mp hnow with hbefore | rfl
        · exact h.sent eventId hbefore
        · exact (Outbox.has_iff _ _).mpr ⟨event, hevent, rfl⟩
      · intro t' ht'
        obtain ⟨t, ht, hterms, hstatus⟩ :=
          Wallet.exists_of_forall₂ hheeds.transfers.flip ht'
        have hold := h.reflects t ht
        rw [hstatus, hterms.id]
        unfold Transfer.statusAfter
        split
        next hnamed =>
          apply hold.after
          intro other _
          rw [hheard]
          simp [hnamed]
        next hnamed =>
          apply hold.congr
          intro other _
          rw [hheard]
          simp [hnamed]

variable {adapter : ChainAdapter σ} {settings : Blockchain.Settings}
  {config : Wallet.Config}

theorem Hears.step (h : Hears w) (action : PlatformStep σ) :
    Hears (step adapter settings config action w) := by
  have hinv : Inv (Platform.step adapter settings config action w) := h.inv.step action
  have hworker : ∀ action,
      Inv { w with service := Blockchain.WorkerPair.step settings action w.service } →
      Hears { w with service := Blockchain.WorkerPair.step settings action w.service } := by
    intro action hinv
    have hapart := Blockchain.WorkerPair.stepped_apart
      (Blockchain.WorkerPair.step_stepped settings action w.service)
    obtain ⟨added, houtbox, _⟩ := hapart.outbox
    exact h.service hinv ⟨added, houtbox⟩
  cases action with
  | wallet s =>
      exact h.proceeds hinv (Wallet.step_proceeds h.inv.placed config s.property)
  | worker action => exact hworker action.val hinv
  | deposits task =>
      have hquiet : Blockchain.Quiet w.service.db (task.run adapter settings w.service.db) :=
        task.run_quiet w.service.db
      obtain ⟨added, houtbox, _⟩ := hquiet.outbox
      exact h.service hinv ⟨added, houtbox⟩
  | relay relaySettings now publishError =>
      obtain ⟨added, houtbox, _⟩ :=
        (relay_quiet relaySettings now publishError w.service.db).outbox
      exact h.service hinv ⟨added, houtbox⟩
  | request scope eventId =>
      simp only [Platform.step] at hinv ⊢
      cases hrow : w.wallet.outbox.find? eventId with
      | none => exact h
      | some row =>
          rw [hrow] at hinv
          exact hworker _ hinv
  | deliver scope eventId =>
      simp only [Platform.step] at hinv ⊢
      cases hrow : w.service.db.outbox.find? eventId with
      | none => exact h
      | some row =>
          rw [hrow] at hinv
          exact h.delivered (List.mem_map_of_mem (Table.mem_of_find? hrow)) hinv
            (Wallet.step_heard h.inv.sound config scope row.envelope)

/-- The wallet has handled every report of the service. -/
def Delivered (w : Platform) : Prop :=
  ∀ event ∈ w.service.db.outbox.envelopes, reports event.eventType = true →
    w.wallet.Recorded event.eventId

instance (w : Platform) : Decidable w.Delivered :=
  inferInstanceAs (Decidable (∀ _ ∈ _, _ → _))

/-- What the wallet says of the transfer is what the service says of its record. -/
structure Matches (status : TransferStatus) (record : TxStatus) : Prop where
  failed : status = .failed ↔ record.terminal = true
  confirmed : status = .confirmed ↔ record = .confirmed
  broadcasted : record = .broadcasted → status = .broadcasted

/-- A transfer without a record is not yet on its way, the others match theirs. -/
structure InAgreement (w : Platform) : Prop where
  unrecorded : ∀ t ∈ w.wallet.transfers.rows, w.service.db.outgoing.find? t.id = none →
    t.status = .created ∨ t.status = .processing
  recorded : ∀ t ∈ w.wallet.transfers.rows, ∀ record,
    w.service.db.outgoing.find? t.id = some record → Matches t.status record.status

theorem Inv.heard_eq (h : Inv w) (hdelivered : w.Delivered) (transferId : Uuid)
    {eventType : EventType} (hreports : Wallet.reports eventType = true) :
    w.heard transferId eventType = w.service.db.reported eventType transferId := by
  rw [Bool.eq_iff_iff, heard_iff, Blockchain.Db.reported, List.any_eq_true]
  have hnames : ∀ event ∈ w.service.db.outbox.envelopes, event.eventType = eventType →
      (namedId event.payload = some transferId ↔
        event.payload.get? "transfer_id" = some (.str transferId.str)) := by
    intro event hmem htype
    rcases h.reports.events event hmem with haside | ⟨record, _, other, _, hreport⟩
    · have hquiet := haside.type
      rw [htype, hreports] at hquiet
      cases hquiet
    · rw [hreport.namedId, hreport.transfer]
      simp only [Option.some.injEq, Json.str.injEq]
      exact ⟨fun hid => by rw [hid], fun hid => Uuid.str_injective hid⟩
  constructor
  · rintro ⟨event, hmem, htype, hnamed, _⟩
    refine ⟨event, hmem, ?_⟩
    rw [Bool.and_eq_true, decide_eq_true_eq, decide_eq_true_eq]
    exact ⟨htype, (hnames event hmem htype).mp hnamed⟩
  · rintro ⟨event, hmem, hcounts⟩
    rw [Bool.and_eq_true, decide_eq_true_eq, decide_eq_true_eq] at hcounts
    obtain ⟨htype, htransfer⟩ := hcounts
    refine ⟨event, hmem, htype, (hnames event hmem htype).mpr htransfer, ?_⟩
    exact hdelivered event hmem (by rw [htype]; exact hreports)

theorem Hears.unrecorded (h : Hears w) (hdelivered : w.Delivered) {t : Transfer}
    (ht : t ∈ w.wallet.transfers.rows)
    (hnone : w.service.db.outgoing.find? t.id = none) :
    t.status = .created ∨ t.status = .processing := by
  have hreflects := h.reflects t ht
  have hheard : ∀ eventType, reports eventType = true →
      w.heard t.id eventType = false := by
    intro eventType hreports
    rw [h.inv.heard_eq hdelivered t.id hreports]
    exact h.inv.reports.not_reported_of_free hnone hreports
  unfold TransferStatus.Reflects at hreflects
  rw [hheard .txFailed rfl, hheard .txConfirmed rfl, hheard .txBroadcasted rfl] at hreflects
  exact hreflects

section Witness

open Blockchain (confirmedEventId custodyAddress reportId someScope)

def sentHash : ChainHash := .literal "0xe1" (by decide)

/-- The money comes in, a transfer is made of it, and its transaction is mined. -/
def sentOnce : List (PlatformStep SettlementWorld.Ending) :=
  [.wallet ⟨.createUser 1 "Carol" "carol@example.com", rfl⟩,
    .wallet ⟨.createUser 2 "Bob" "bob@example.com", rfl⟩,
    .wallet ⟨.attachWallet (someUuid 4) 1 "BSC" "USDT" custodyAddress.address.val, rfl⟩,
    .wallet ⟨.attachWallet (someUuid 2) 2 "BSC" "USDT" "0xbeef", rfl⟩,
    .deposits (.issueAddress "user-1" "BSC" custodyAddress.address.val),
    .deposits (.scan someScope (fun _ => someUuid 9) (.fixed .original)),
    .deposits (.watch someScope .original fun _ => .fixed .original),
    .deliver someScope
      (confirmedEventId SettlementWorld.paymentId SettlementWorld.paymentBlock),
    .wallet ⟨.createTransfer someScope (someUuid 3) ⟨1, 2, "USDT", 200, "key", "BSC"⟩, rfl⟩,
    .request someScope (.uuid5 ("transfer.requested|" ++ (someUuid 3).str)),
    .worker ⟨.claim 1000 10, rfl⟩,
    .worker ⟨.send (.ok sentHash), rfl⟩,
    .worker ⟨.record someScope, rfl⟩,
    .worker ⟨.list 9, rfl⟩,
    .worker ⟨.read, rfl⟩,
    .worker ⟨.receipt (some ⟨sentHash, 5, sentHash, 1⟩), rfl⟩,
    .worker ⟨.check someScope, rfl⟩,
    .deliver someScope (reportId .txConfirmed (someUuid 3) (sentHash.val ++ ":confirmed")),
    .deliver someScope (reportId .txBroadcasted (someUuid 3) (sentHash.val ++ ":broadcast"))]

/-- A transfer whose turn has come at the broadcaster. -/
theorem claimed_row_is_a_transfer :
    ∃ row ∈ (runSteps (step SettlementWorld.endingAdapter .standard Wallet.spentConfig) .start
        (sentOnce.take 11)).service.claimed,
      ∃ t ∈ (runSteps (step SettlementWorld.endingAdapter .standard Wallet.spentConfig) .start
          (sentOnce.take 11)).wallet.transfers.rows,
        row.sendRequest = ⟨t.fromAddress, t.toAddress, t.amount.toNat, t.id.str⟩ ∧
        row.asset.val = t.asset ∧ row.network.val = t.network ∧
        (runSteps (step SettlementWorld.endingAdapter .standard Wallet.spentConfig) .start
          (sentOnce.take 11)).wallet.Addressed t := by
  have hclaimed : 0 < (runSteps (step SettlementWorld.endingAdapter .standard
      Wallet.spentConfig) .start (sentOnce.take 11)).service.claimed.length := by
    decide +kernel
  obtain ⟨row, hrow⟩ := List.exists_mem_of_length_pos hclaimed
  exact ⟨row, hrow, sends_are_transfers _ row hrow⟩

end Witness

end Platform

end CryptoWallet
