import CryptoWallet.DepositSettlement
import CryptoWallet.TransferOutcome

/-!
# What the wallet asks for and what it makes of the reports

A transfer names the addresses of two wallets, and its event carries its terms.  A
report moves the transfer it names along, and no other; everything else leaves the
transfers as they are, but for the progress worker.
-/

namespace CryptoWallet.Wallet

open Tx

theorem exists_of_forall₂ {α β : Type} {R : α → β → Prop} {rows : List α} {rows' : List β}
    (h : List.Forall₂ R rows rows') {row : α} (hrow : row ∈ rows) :
    ∃ row' ∈ rows', R row row' := by
  induction h with
  | nil => cases hrow
  | cons hfirst hrest ih =>
      rcases List.mem_cons.mp hrow with rfl | hrow
      · exact ⟨_, List.mem_cons_self, hfirst⟩
      · obtain ⟨row', hrow', hrelated⟩ := ih hrow
        exact ⟨row', List.mem_cons_of_mem _ hrow', hrelated⟩

/-! ## Reports -/

/-- The status of the transfer once the event is handled. -/
def Transfer.statusAfter (t : Transfer) (eventType : EventType) (payload : Payload) :
    TransferStatus :=
  if namedId payload = some t.id then t.status.after eventType else t.status

/-- The transfers after a step, each with its status; nothing else is written but books. -/
structure Heeds (db db' : Db) (status : Transfer → TransferStatus) : Prop where
  transfers : List.Forall₂ (fun t t' => SameTerms t t' ∧ t'.status = status t)
    db.transfers.rows db'.transfers.rows
  wallets : db'.wallets = db.wallets
  outbox : db'.outbox = db.outbox

theorem Heeds.of_same {db db' : Db} {status : Transfer → TransferStatus}
    (htransfers : db'.transfers = db.transfers) (hwallets : db'.wallets = db.wallets)
    (houtbox : db'.outbox = db.outbox)
    (hstatus : ∀ t ∈ db.transfers.rows, status t = t.status) : Heeds db db' status where
  transfers := by
    rw [htransfers, List.forall₂_same]
    exact fun t ht => ⟨.refl t, (hstatus t ht).symm⟩
  wallets := hwallets
  outbox := houtbox

theorem Heeds.of_transition {db db' : Db} {t t' : Transfer} {entries : List LedgerEntry}
    {hold : Account → Int} {status : Transfer → TransferStatus}
    (h : Transition db db' t t' entries hold) (hstatus : t'.status = status t)
    (hothers : ∀ other ∈ db.transfers.rows, other ≠ t → status other = other.status) :
    Heeds db db' status := by
  obtain ⟨mid, hmoved, rfl⟩ := h.change
  refine ⟨?_, hmoved.frame.wallets, hmoved.frame.outbox⟩
  rw [Table.replace_rows, hmoved.frame.transfers]
  apply forall₂_map_self
  intro row hrow
  split
  next hid =>
    rw [h.terms.id] at hid
    have hsame : row = t :=
      db.transfers.eq_of_mem_of_key_eq hrow (Table.mem_of_find? h.find) hid
    exact hsame ▸ ⟨h.terms, hstatus⟩
  next hid =>
    refine ⟨.refl row, (hothers row hrow ?_).symm⟩
    rintro rfl
    exact hid h.terms.id.symm

section Reports

variable {db db' : Db} {t t' : Transfer} {eventType : EventType} {payload : Payload}

theorem statusAfter_of_reached {target : TransferStatus}
    (htarget : TransferStatus.after .created eventType = target)
    (hreached : db.Reached payload target) :
    ∀ t ∈ db.transfers.rows, t.statusAfter eventType payload = t.status := by
  intro t ht
  unfold Transfer.statusAfter
  split
  next hid =>
    have hnamed : db.named payload = some t := by
      rw [Db.named, hid, Option.bind_some]
      exact db.transfers.find?_of_mem ht
    exact TransferStatus.after_of_reached htarget (hreached t hnamed)
  next => rfl

theorem statusAfter_of_beside (h : reports eventType = false) (t : Transfer) :
    t.statusAfter eventType payload = t.status := by
  unfold Transfer.statusAfter
  split
  · cases eventType with
    | txBroadcasted | txConfirmed | txFailed => cases h
    | depositDetected | depositConfirmed | depositReorged | transferRequested
    | unknown _ => rfl
  · rfl

theorem Heeds.of_named {entries : List LedgerEntry} {hold : Account → Int}
    (hnamed : db.named payload = some t) (h : Transition db db' t t' entries hold)
    (hstatus : t'.status = t.status.after eventType) :
    Heeds db db' (·.statusAfter eventType payload) := by
  have hid := namedId_of_named hnamed
  apply Heeds.of_transition h
  · rw [hstatus, Transfer.statusAfter, if_pos hid]
  · intro other hother hne
    rw [Transfer.statusAfter, if_neg]
    intro hsame
    rw [hid, Option.some.injEq] at hsame
    have hkeys := db.transfers.eq_of_mem_of_key_eq hother
      (Table.mem_of_find? h.find) hsame.symm
    exact hne hkeys

theorem handle_heeds (h : Sound db) (scope : Scope) (eventType : EventType)
    (payload : Payload) :
    Ensures (handle scope eventType payload) db
      (fun _ db' => Heeds db db' (·.statusAfter eventType payload)) fun _ => True := by
  have hposted : ∀ {db' : Db}, reports eventType = false → DepositPosted scope db db' →
      Heeds db db' (·.statusAfter eventType payload) := by
    intro db' hquiet hposted
    have hstatus : ∀ t ∈ db.transfers.rows, t.statusAfter eventType payload = t.status :=
      fun t _ => statusAfter_of_beside hquiet t
    rcases hposted with rfl | ⟨_, _, _, _, _, hmoved⟩
    · exact .of_same rfl rfl rfl hstatus
    · exact .of_same hmoved.frame.transfers hmoved.frame.wallets hmoved.frame.outbox hstatus
  have hidle : reports eventType = false →
      Heeds db db (·.statusAfter eventType payload) :=
    fun hquiet => hposted hquiet (Or.inl rfl)
  cases eventType with
  | depositDetected => exact Ensures.pure (hidle rfl)
  | depositConfirmed =>
      exact (creditDeposit_ensures db scope payload).mono
        (fun _ _ hdeposit => hposted rfl hdeposit) fun _ _ => trivial
  | depositReorged =>
      exact (reverseDeposit_ensures db scope payload).mono
        (fun _ _ hdeposit => hposted rfl hdeposit) fun _ _ => trivial
  | txBroadcasted =>
      apply (markBroadcasted_ensures db scope payload).mono ?_ fun _ _ => trivial
      rintro _ db' (⟨rfl, hreached⟩ | ⟨t, t', hnamed, hopen, hstatus, htransition⟩)
      · exact .of_same rfl rfl rfl (statusAfter_of_reached rfl hreached)
      · apply Heeds.of_named hnamed htransition
        rw [hstatus, TransferStatus.after, if_pos hopen]
  | txConfirmed =>
      apply (settleTransfer_ensures h.holdsCovered scope payload).mono ?_ fun _ _ => trivial
      rintro _ db' (⟨rfl, hreached⟩ | ⟨t, t', _, hnamed, hopen, hstatus, _, htransition⟩)
      · exact .of_same rfl rfl rfl (statusAfter_of_reached rfl hreached)
      · apply Heeds.of_named hnamed htransition
        rw [hstatus, TransferStatus.after, if_pos hopen]
  | txFailed =>
      apply (failTransfer_ensures h.holdsCovered scope payload).mono ?_ fun _ _ => trivial
      rintro _ db' (⟨rfl, hreached⟩ | ⟨t, t', hnamed, hstatus, hcases⟩)
      · exact .of_same rfl rfl rfl (statusAfter_of_reached rfl hreached)
      · rcases hcases with ⟨_, htransition⟩ | ⟨_, _, _, htransition⟩
        · exact .of_named hnamed htransition hstatus
        · exact .of_named hnamed htransition hstatus
  | transferRequested => exact Ensures.pure (hidle rfl)
  | unknown name => exact Ensures.pure (hidle rfl)

/-- An event which is delivered is a duplicate, or it is recorded and heeded. -/
inductive Heard (envelope : Envelope) (db : Db) : Db → Prop where
  | idle : Heard envelope db db
  | heeded (hfresh : ¬db.Recorded envelope.eventId) (db' : Db)
      (hrecorded : ∀ event, db'.Recorded event ↔ db.Recorded event ∨ event = envelope.eventId)
      (hheeds : Heeds db db' (·.statusAfter envelope.eventType envelope.payload)) :
      Heard envelope db db'

theorem dispatch_heard (h : Sound db) (scope : Scope) (envelope : Envelope) :
    Ensures (dispatch scope envelope) db (fun _ db' => Heard envelope db db')
      fun _ => True := by
  unfold dispatch
  apply Ensures.bind ((claimEvent_ensures db envelope).mono (fun _ _ h => h)
    (fun _ _ => trivial))
  rintro claimed db₁ (⟨rfl, rfl, _⟩ | ⟨rfl, processedEvents, hinsert, rfl⟩)
  · exact Ensures.pure .idle
  · have hclaimed : Sound { db with processedEvents } := h.congr rfl rfl rfl
    have hfresh : ¬db.Recorded envelope.eventId := by
      have hfree := Table.insert?_free hinsert
      simpa [Db.Recorded, ProcessedEvent.primaryKey] using hfree
    apply ((handle_heeds hclaimed (deliveryScope scope envelope) envelope.eventType
      envelope.payload).and (handle_handled hclaimed (deliveryScope scope envelope)
      envelope.eventType envelope.payload)).mono ?_ fun _ _ => trivial
    rintro _ db' ⟨hheeds, hhandled⟩
    refine .heeded hfresh db' ?_ ⟨hheeds.transfers, hheeds.wallets, hheeds.outbox⟩
    have hinsert' : db.processedEvents.insert? ⟨consumerName, envelope.eventId,
        envelope.eventType⟩ = some db'.processedEvents := by
      rw [hhandled.processedEvents]
      exact hinsert
    exact recorded_insert_iff hinsert' rfl

theorem step_heard (h : Sound db) (config : Config) (scope : Scope) (envelope : Envelope) :
    Heard envelope db (step config (.dispatch scope envelope) db) := by
  apply commit_preserves (I := Heard envelope db) .idle
  exact Ensures.discard (dispatch_heard h scope envelope)

end Reports

/-! ## Requests -/

/-- A column of this width holds the text. -/
def Fits (limit : Nat) (text : String) : Prop :=
  text.length ≤ limit ∧ '\x00' ∉ text.toList

theorem enqueueEvent_correlation {outbox outbox' : Outbox} {envelope : Envelope}
    (h : enqueueEvent outbox envelope = .ok outbox') :
    ∃ stored, varchar 64 envelope.correlationId = .ok stored := by
  unfold enqueueEvent at h
  obtain ⟨_, _, h⟩ := bind_eq_ok.mp h
  obtain ⟨stored, hstored, _⟩ := bind_eq_ok.mp h
  exact ⟨stored, hstored⟩

/-- The event asks the other service to send this transfer. -/
structure Transfer.RequestedBy (t : Transfer) (event : Envelope) : Prop where
  request : ∃ scope asset, getAsset t.asset = some asset ∧ asset.symbol = t.asset ∧
    event = requestedEvent scope t asset
  correlation : ∃ stored, varchar 64 event.correlationId = .ok stored

theorem requestedEvent_eventId (scope : Scope) (t : Transfer) (asset : Asset) :
    (requestedEvent scope t asset).eventId =
      .uuid5 (EventType.transferRequested.name ++ "|" ++ t.id.str) := by
  have hkey : t.id.str ≠ "" := by
    intro hempty
    have hlength := t.id.str_length
    rw [hempty] at hlength
    cases hlength
  simp [requestedEvent, newEvent, hkey]

section RequestedBy

variable {t t' : Transfer} {event : Envelope}

theorem Transfer.RequestedBy.same (h : t.RequestedBy event) (hterms : SameTerms t t') :
    t'.RequestedBy event := by
  obtain ⟨scope, asset, hasset, hsymbol, hevent⟩ := h.request
  refine ⟨⟨scope, asset, ?_, ?_, ?_⟩, h.correlation⟩
  · rw [hterms.asset]
    exact hasset
  · rw [hterms.asset]
    exact hsymbol
  · rw [hevent, requestedEvent, requestedEvent, requestedPayload, requestedPayload, hterms.id,
      hterms.fromUserId, hterms.toUserId, hterms.network, hterms.fromAddress,
      hterms.toAddress, hterms.amount]

theorem Transfer.RequestedBy.eventId (h : t.RequestedBy event) :
    event.eventId = .uuid5 (EventType.transferRequested.name ++ "|" ++ t.id.str) := by
  obtain ⟨scope, asset, _, _, rfl⟩ := h.request
  exact requestedEvent_eventId scope t asset

theorem Transfer.RequestedBy.type (h : t.RequestedBy event) :
    event.eventType = .transferRequested := by
  obtain ⟨scope, asset, _, _, rfl⟩ := h.request
  rfl

theorem Transfer.RequestedBy.id_eq {event' : Envelope} (h : t.RequestedBy event)
    (h' : t'.RequestedBy event') (hid : event.eventId = event'.eventId) : t.id = t'.id := by
  rw [h.eventId, h'.eventId, EventId.uuid5.injEq] at hid
  have hlist := congrArg String.toList hid
  simp only [String.toList_append, List.append_assoc, List.append_cancel_left_eq] at hlist
  exact Uuid.str_injective (String.toList_inj.mp hlist)

end RequestedBy

/-- The columns of the row are wide enough. -/
structure WalletRow.Stored (w : WalletRow) : Prop where
  network : Fits 32 w.network
  asset : Fits 16 w.asset
  address : Fits 64 w.address

/-- The transfer goes from the address of a wallet of the sender to one of the recipient. -/
def Db.Addressed (db : Db) (t : Transfer) : Prop :=
  ∃ w ∈ db.wallets.rows, ∃ w' ∈ db.wallets.rows,
    w.key = (t.fromUserId, t.network, t.asset) ∧ w.address = t.fromAddress ∧
    w'.key = (t.toUserId, t.network, t.asset) ∧ w'.address = t.toAddress

theorem Db.Addressed.same {db db' : Db} {t t' : Transfer} (h : db.Addressed t)
    (hwallets : ∀ w ∈ db.wallets.rows, w ∈ db'.wallets.rows) (hterms : SameTerms t t') :
    db'.Addressed t' := by
  obtain ⟨w, hw, w', hw', hkey, haddress, hkey', haddress'⟩ := h
  refine ⟨w, hwallets w hw, w', hwallets w' hw', ?_, ?_, ?_, ?_⟩
  · rw [hkey, hterms.fromUserId, hterms.network, hterms.asset]
  · rw [haddress, hterms.fromAddress]
  · rw [hkey', hterms.toUserId, hterms.network, hterms.asset]
  · rw [haddress', hterms.toAddress]

/-- The outbox asks for the transfers and for nothing else, and these are addressed. -/
structure Placed (db : Db) : Prop where
  requested : ∀ event ∈ db.outbox.envelopes, ∃ t ∈ db.transfers.rows, t.RequestedBy event
  asked : ∀ t ∈ db.transfers.rows, ∃ event ∈ db.outbox.envelopes, t.RequestedBy event
  addressed : ∀ t ∈ db.transfers.rows, db.Addressed t
  stored : ∀ w ∈ db.wallets.rows, w.Stored

theorem Placed.empty : Placed Db.empty := by
  constructor <;> simp [Db.empty, Outbox.envelopes]

/-- What a step which delivers no event can do. -/
structure Proceeds (db db' : Db) : Prop where
  kept : ∀ t ∈ db.transfers.rows, ∃ t' ∈ db'.transfers.rows, SameTerms t t'
  rows : ∀ t' ∈ db'.transfers.rows,
    (∃ t ∈ db.transfers.rows, SameTerms t t' ∧
      (t'.status = t.status ∨ (t.status = .created ∧ t'.status = .processing))) ∨
    (t'.status = .created ∧ db.transfers.find? t'.id = none ∧ db.Addressed t' ∧
      ∃ event ∈ db'.outbox.envelopes, t'.RequestedBy event)
  wallets : ∀ w ∈ db.wallets.rows, w ∈ db'.wallets.rows
  stored : ∀ w ∈ db'.wallets.rows, w ∈ db.wallets.rows ∨ w.Stored
  events : ∃ added, db'.outbox.envelopes = db.outbox.envelopes ++ added ∧
    ∀ event ∈ added, ∃ t ∈ db'.transfers.rows, t.RequestedBy event
  recorded : ∀ event, db'.Recorded event ↔ db.Recorded event

theorem Proceeds.of_same {db db' : Db} (htransfers : db'.transfers = db.transfers)
    (hwallets : db'.wallets = db.wallets)
    (houtbox : db'.outbox.envelopes = db.outbox.envelopes)
    (hprocessed : db'.processedEvents = db.processedEvents) : Proceeds db db' where
  kept := by
    rw [htransfers]
    exact fun t ht => ⟨t, ht, .refl t⟩
  rows := by
    rw [htransfers]
    exact fun t ht => Or.inl ⟨t, ht, .refl t, Or.inl rfl⟩
  wallets := by
    rw [hwallets]
    exact fun w hw => hw
  stored := by
    rw [hwallets]
    exact fun w hw => Or.inl hw
  events := ⟨[], by rw [houtbox, List.append_nil], by simp⟩
  recorded := by
    intro event
    rw [Db.Recorded, Db.Recorded, hprocessed]

theorem Placed.proceeds {db db' : Db} (h : Placed db) (hstep : Proceeds db db') :
    Placed db' := by
  obtain ⟨added, houtbox, hadded⟩ := hstep.events
  constructor
  · intro event hevent
    rw [houtbox] at hevent
    rcases List.mem_append.mp hevent with hold | hnew
    · obtain ⟨t, ht, hrequested⟩ := h.requested event hold
      obtain ⟨t', ht', hterms⟩ := hstep.kept t ht
      exact ⟨t', ht', hrequested.same hterms⟩
    · exact hadded event hnew
  · intro t' ht'
    rcases hstep.rows t' ht' with ⟨t, ht, hterms, _⟩ | ⟨_, _, _, hasked⟩
    · obtain ⟨event, hevent, hrequested⟩ := h.asked t ht
      refine ⟨event, ?_, hrequested.same hterms⟩
      rw [houtbox]
      exact List.mem_append_left _ hevent
    · exact hasked
  · intro t' ht'
    rcases hstep.rows t' ht' with ⟨t, ht, hterms, _⟩ | ⟨_, _, haddressed, _⟩
    · exact (h.addressed t ht).same hstep.wallets hterms
    · exact haddressed.same hstep.wallets (.refl t')
  · intro w hw
    rcases hstep.stored w hw with hold | hstored
    · exact h.stored w hold
    · exact hstored

theorem Placed.heeds {db db' : Db} (h : Placed db) {status : Transfer → TransferStatus}
    (hstep : Heeds db db' status) : Placed db' := by
  have hrows : ∀ t' ∈ db'.transfers.rows, ∃ t ∈ db.transfers.rows, SameTerms t t' := by
    intro t' ht'
    obtain ⟨t, ht, hsame⟩ := exists_of_forall₂ hstep.transfers.flip ht'
    exact ⟨t, ht, hsame.1⟩
  constructor
  · intro event hevent
    rw [hstep.outbox] at hevent
    obtain ⟨t, ht, hrequested⟩ := h.requested event hevent
    obtain ⟨t', ht', hsame⟩ := exists_of_forall₂ hstep.transfers ht
    exact ⟨t', ht', hrequested.same hsame.1⟩
  · intro t' ht'
    obtain ⟨t, ht, hterms⟩ := hrows t' ht'
    obtain ⟨event, hevent, hrequested⟩ := h.asked t ht
    rw [hstep.outbox]
    exact ⟨event, hevent, hrequested.same hterms⟩
  · intro t' ht'
    obtain ⟨t, ht, hterms⟩ := hrows t' ht'
    apply (h.addressed t ht).same ?_ hterms
    rw [hstep.wallets]
    exact fun w hw => hw
  · rw [hstep.wallets]
    exact h.stored

/-! ## Steps which deliver nothing -/

section Steps

variable {db db' : Db} {scope : Scope} {newId : Uuid} {request : TransferRequest}

theorem insertTransfer_addressed (db : Db) (scope : Scope) (newId : Uuid)
    (request : TransferRequest) (asset : Asset) {w w' : WalletRow} (hstored : w.Stored)
    (hstored' : w'.Stored) (hkey : w.key = (request.fromUserId, request.network, asset.symbol))
    (hkey' : w'.key = (request.toUserId, request.network, asset.symbol)) :
    Ensures (insertTransfer scope newId request asset w w') db
      (fun t _ => w.key = (t.fromUserId, t.network, t.asset) ∧
        w.address = t.fromAddress ∧ w'.key = (t.toUserId, t.network, t.asset) ∧
        w'.address = t.toAddress)
      fun _ => True := by
  have hnetwork : request.network.length ≤ 32 := by
    simp only [WalletRow.key, Prod.mk.injEq] at hkey
    rw [← hkey.2.1]
    exact hstored.network.1
  have hsymbol : asset.symbol.length ≤ 16 := by
    simp only [WalletRow.key, Prod.mk.injEq] at hkey
    rw [← hkey.2.2]
    exact hstored.asset.1
  unfold insertTransfer
  apply Ensures.orRaise_bind ?_ fun _ _ => trivial
  intro _ _
  apply Ensures.orRaise_bind ?_ fun _ _ => trivial
  intro symbol hsymbolStored
  apply Ensures.orRaise_bind ?_ fun _ _ => trivial
  intro network hnetworkStored
  apply Ensures.orRaise_bind ?_ fun _ _ => trivial
  intro fromAddress hfrom
  apply Ensures.orRaise_bind ?_ fun _ _ => trivial
  intro toAddress hto
  apply Ensures.orRaise_bind ?_ fun _ _ => trivial
  intro correlationId _
  split
  next hcheck =>
    apply Ensures.query_bind
    split
    · exact Ensures.throw trivial
    · apply Ensures.query_bind
      cases hinsert : db.transfers.insert? _ with
      | none => exact Ensures.throw trivial
      | some transfers =>
          apply Ensures.modifyDb_bind
          apply Ensures.pure
          refine ⟨?_, (varchar_eq hstored.address.1 hfrom).symm, ?_,
            (varchar_eq hstored'.address.1 hto).symm⟩
          · rw [hkey, varchar_eq hsymbol hsymbolStored,
              varchar_eq hnetwork hnetworkStored]
          · rw [hkey', varchar_eq hsymbol hsymbolStored,
              varchar_eq hnetwork hnetworkStored]
  next => exact Ensures.throw trivial

theorem createTransfer_addressed (h : Placed db) (scope : Scope) (newId : Uuid)
    (request : TransferRequest) :
    Ensures (createTransfer scope newId request) db (fun t _ => db.Addressed t)
      fun _ => True := by
  unfold createTransfer
  split
  · exact Ensures.throw trivial
  cases hasset : getAsset request.asset with
  | none => exact Ensures.throw trivial
  | some asset =>
      apply Ensures.bind ((getUser_ensures db _).mono (fun _ _ h => h) fun _ _ => trivial)
      rintro sender _ ⟨rfl, _⟩
      apply Ensures.bind ((getUser_ensures _ _).mono (fun _ _ h => h) fun _ _ => trivial)
      rintro recipient db ⟨rfl, _⟩
      apply Ensures.bind
        ((requireActiveUsers_ensures db _).mono (fun _ _ h => h) fun _ _ => trivial)
      rintro _ _ rfl
      apply Ensures.query_bind
      apply Ensures.query_bind
      split
      next w w' hfrom hto =>
        have hw := Table.mem_of_find? hfrom
        have hw' := Table.mem_of_find? hto
        apply Ensures.bind
          ((requireActiveWallets_ensures _ _).mono (fun _ _ h => h) fun _ _ => trivial)
        rintro _ db rfl
        apply Ensures.bind
          ((lockBalance_ensures db _ _).mono (fun _ _ h => h) fun _ _ => trivial)
        rintro balance db₁ ⟨_, hbalance⟩
        apply Ensures.bind ((placeHold_ensures hbalance request.amountUnits).mono
          (fun _ _ h => h) fun _ _ => trivial)
        rintro held db₂ _
        split
        · apply Ensures.bind (insertTransfer_addressed db₂ scope newId request asset
            (h.stored w hw) (h.stored w' hw') (Table.key_of_find? hfrom) (Table.key_of_find? hto))
          rintro t db₃ ⟨hkey, haddress, hkey', haddress'⟩
          apply Ensures.bind ((enqueue_ensures db₃ _).mono (fun _ _ h => h)
            fun _ _ => trivial)
          rintro _ _ _
          exact Ensures.pure ⟨w, hw, w', hw', hkey, haddress, hkey', haddress'⟩
        · exact Ensures.throw trivial
      next => exact Ensures.throw trivial

theorem TransferCreated.proceeds {t : Transfer} (hplaced : Placed db)
    (h : TransferCreated scope newId request db t db') (haddressed : db.Addressed t) :
    Proceeds db db' := by
  have hrows := h.rows
  obtain ⟨asset, mid, transfers, outbox, hasset, hcreated, hmoved, hinsert, henqueue, rfl⟩ :=
    h.change
  have hmem : t ∈ transfers.rows := (Table.mem_insert? hinsert).mpr (Or.inr rfl)
  have hfree : db.transfers.find? t.id = none := by
    have hfree := Table.insert?_free hinsert
    rw [hmoved.frame.transfers] at hfree
    exact hfree
  have hrequested : t.RequestedBy (requestedEvent scope t asset) := by
    have husdt := getAsset_eq_usdt hasset
    subst husdt
    obtain ⟨stored, hstored, hsame⟩ := hcreated.asset
    have hsymbol : t.asset = usdt.symbol := by
      rw [hsame, varchar_eq (by decide) hstored]
    refine ⟨⟨scope, usdt, ?_, hsymbol.symm, rfl⟩, enqueueEvent_correlation henqueue⟩
    rw [hsymbol]
    decide
  have hevents : outbox.envelopes = db.outbox.envelopes ++ [requestedEvent scope t asset] := by
    rw [hmoved.frame.outbox] at henqueue
    rcases enqueueEvent_cases henqueue with ⟨htaken, _⟩ | ⟨_, hadded⟩
    · obtain ⟨old, hold, hid⟩ := (Outbox.has_iff _ _).mp htaken
      obtain ⟨other, hother, hrequestedOther⟩ := hplaced.requested old hold
      have hkey := hrequestedOther.id_eq hrequested hid
      rw [Table.find?_eq_none_iff] at hfree
      exact (hfree other hother hkey).elim
    · exact hadded
  constructor
  · intro row hrow
    rw [hrows]
    exact ⟨row, List.mem_append_left _ hrow, .refl row⟩
  · intro row hrow
    rw [hrows] at hrow
    rcases List.mem_append.mp hrow with hold | hnew
    · exact Or.inl ⟨row, hold, .refl row, Or.inl rfl⟩
    · rw [List.mem_singleton.mp hnew]
      refine Or.inr ⟨hcreated.status, hfree, haddressed, _, ?_, hrequested⟩
      dsimp only
      rw [hevents]
      exact List.mem_append_right _ List.mem_cons_self
  · dsimp only
    rw [hmoved.frame.wallets]
    exact fun w hw => hw
  · dsimp only
    rw [hmoved.frame.wallets]
    exact fun w hw => Or.inl hw
  · refine ⟨_, hevents, ?_⟩
    intro event hevent
    rw [List.mem_singleton.mp hevent]
    exact ⟨t, hmem, hrequested⟩
  · intro event
    have hprocessed : ({ mid with transfers, outbox } : Db).processedEvents =
        db.processedEvents := hmoved.frame.processedEvents
    rw [Db.Recorded, Db.Recorded, hprocessed]

theorem complete_transfers (db : Db) (scope key : String) (status : Nat)
    (body : TransferResponse) (resourceId : String) :
    Ensures (complete scope key status body resourceId) db
      (fun _ db' => db'.transfers = db.transfers) fun _ => True := by
  unfold complete
  apply Ensures.query_bind
  cases db.idempotencyKeys.find? (scope, key) with
  | none => exact Ensures.pure rfl
  | some row => exact Ensures.modifyDb rfl

theorem postTransfer_addressed (h : Placed db) (settings : ApiSettings) (scope : Scope)
    (newId : Uuid) (body : CreateTransferRequest) :
    Ensures (postTransfer settings scope newId body) db
      (fun _ db' => ∀ t ∈ db'.transfers.rows, t ∈ db.transfers.rows ∨ db.Addressed t)
      fun _ => True := by
  unfold postTransfer
  apply Ensures.bind ((resolveAsset_ensures db body.asset).mono (fun _ _ h => h)
    fun _ _ => trivial)
  rintro asset _ ⟨rfl, _⟩
  apply Ensures.bind ((resolveAmount_ensures _ body.amount asset).mono (fun _ _ h => h)
    fun _ _ => trivial)
  rintro amountUnits db ⟨rfl, _⟩
  apply Ensures.bind ((claim_ensures db transferScope _ _ (by decide)
    body.keyLength.2).mono (fun _ _ h => h) fun _ _ => trivial)
  rintro claimed db₁ (⟨row, rfl, rfl, _⟩ | ⟨rfl, idempotencyKeys, hinsert, rfl⟩)
  · dsimp only
    cases row.responseBody with
    | none => exact Ensures.throw trivial
    | some stored => exact Ensures.pure fun t ht => Or.inl ht
  · have hclaimed : Placed { db with idempotencyKeys } :=
      ⟨h.requested, h.asked, h.addressed, h.stored⟩
    have hboth := fun request => ((createTransfer_ensures { db with idempotencyKeys } scope
      newId request).mono (fun _ _ h => h) fun _ _ => trivial).and
        (createTransfer_addressed hclaimed scope newId request)
    apply Ensures.bind ((hboth _).mono (fun _ _ h => h) fun _ _ => trivial)
    rintro t db₂ ⟨hcreated, haddressed⟩
    apply Ensures.orRaise_bind ?_ fun _ _ => trivial
    intro response hresponse
    apply Ensures.bind (complete_transfers db₂ _ _ 202 response t.id.str)
    intro _ db₃ htransfers
    apply Ensures.pure
    intro other hother
    have hrows : db₂.transfers.rows = db.transfers.rows ++ [t] := hcreated.rows
    rw [htransfers, hrows] at hother
    rcases List.mem_append.mp hother with hold | hnew
    · exact Or.inl hold
    · rw [List.mem_singleton.mp hnew]
      exact Or.inr haddressed

theorem Posted.proceeds {settings : ApiSettings} {response : PostResponse}
    (hplaced : Placed db)
    (h : Posted settings scope newId request db response db')
    (haddressed : ∀ t ∈ db'.transfers.rows, t ∈ db.transfers.rows ∨ db.Addressed t) :
    Proceeds db db' := by
  cases h with
  | replayed => exact .of_same rfl rfl rfl rfl
  | @created t response db₁ claimed idempotencyKeys hcreated _ _ =>
      have hnew : db.Addressed t := by
        have hmem : t ∈ db₁.transfers.rows := by
          rw [hcreated.rows]
          exact List.mem_append_right _ List.mem_cons_self
        rcases haddressed t hmem with hold | hnew
        · obtain ⟨_, mid, transfers, _, _, _, hmoved, hinsert, _, _⟩ := hcreated.change
          have hfree := Table.insert?_free hinsert
          rw [hmoved.frame.transfers, Table.find?_eq_none_iff] at hfree
          exact (hfree t hold rfl).elim
        · exact hnew
      have hproceeds : Proceeds { db with idempotencyKeys := claimed } db₁ :=
        hcreated.proceeds ⟨hplaced.requested, hplaced.asked, hplaced.addressed,
          hplaced.stored⟩ hnew
      exact ⟨hproceeds.kept, hproceeds.rows, hproceeds.wallets, hproceeds.stored,
        hproceeds.events, hproceeds.recorded⟩

theorem attachWallet_stored (db : Db) (newId : Uuid) (userId : Int)
    (network asset address : String) :
    Ensures (attachWallet newId userId network asset address) db
      (fun _ db' => ∀ w ∈ db'.wallets.rows, w ∈ db.wallets.rows ∨ w.Stored)
      fun _ => True := by
  unfold attachWallet
  apply Ensures.orRaise_bind ?_ fun _ _ => trivial
  intro storedNetwork _
  apply Ensures.orRaise_bind ?_ fun _ _ => trivial
  intro storedAsset _
  apply Ensures.orRaise_bind ?_ fun _ _ => trivial
  intro storedAddress _
  apply Ensures.bind ((insertWallet_ensures db _).mono (fun _ _ h => h) fun _ _ => trivial)
  intro inserted db₁ hinserted
  have hwallets : ∀ w ∈ db₁.wallets.rows, w ∈ db.wallets.rows ∨ w.Stored := by
    intro w hw
    rcases hinserted with ⟨_, rfl⟩ | ⟨_, wallets, hwallets, rfl⟩
    · exact Or.inl hw
    · rcases (Table.mem_insert? hwallets.insert).mp hw with hold | rfl
      · exact Or.inl hold
      · exact Or.inr ⟨storedNetwork.property, storedAsset.property, storedAddress.property⟩
  apply Ensures.bind ((ensureBalance_ensures db₁ userId asset).mono (fun _ _ h => h)
    fun _ _ => trivial)
  rintro _ db₂ ⟨hmoved, _⟩
  apply Ensures.query_bind
  cases db₂.wallets.find? (userId, network, asset) with
  | none => exact Ensures.throw trivial
  | some wallet =>
      apply Ensures.pure
      rw [hmoved.frame.wallets]
      exact hwallets

theorem stepTx_proceeds (h : Placed db) (config : Config) {s : Step}
    (hs : s.delivers = false) :
    Ensures (stepTx config s) db (fun _ => Proceeds db) fun _ => True := by
  cases s with
  | createUser newId name email =>
      apply Ensures.discard
      apply (createUser_ensures db config.letterCase newId name email).mono
      · rintro _ _ ⟨_, users, _, rfl⟩
        exact .of_same rfl rfl rfl rfl
      · exact fun _ _ => trivial
  | attachWallet newId userId network asset address =>
      apply Ensures.discard
      apply (((attachWallet_ensures db newId userId network asset address).mono
        (fun _ _ h => h) fun _ _ => trivial).and
        (attachWallet_stored db newId userId network asset address)).mono
      · rintro _ db' ⟨⟨_, wallets, hmoved, hwallets⟩, hstored⟩
        have hsame : Proceeds { db with wallets } db' :=
          .of_same hmoved.frame.transfers hmoved.frame.wallets
            (by rw [hmoved.frame.outbox]) hmoved.frame.processedEvents
        have hkept : ∀ w ∈ db.wallets.rows, w ∈ wallets.rows := by
          rcases hwallets with rfl | ⟨wallet, hinserted⟩
          · exact fun w hw => hw
          · exact fun w hw => (Table.mem_insert? hinserted.insert).mpr (Or.inl hw)
        refine ⟨hsame.kept, ?_, fun w hw => hsame.wallets w (hkept w hw), hstored,
          hsame.events, hsame.recorded⟩
        intro t ht
        rw [hmoved.frame.transfers] at ht
        exact Or.inl ⟨t, ht, .refl t, Or.inl rfl⟩
      · exact fun _ _ => trivial
  | createTransfer scope newId request =>
      apply Ensures.discard
      apply (((createTransfer_ensures db scope newId request).mono (fun _ _ h => h)
        fun _ _ => trivial).and (createTransfer_addressed h scope newId request)).mono
      · rintro t db' ⟨hcreated, haddressed⟩
        exact hcreated.proceeds h haddressed
      · exact fun _ _ => trivial
  | postTransfer scope newId body =>
      apply Ensures.discard
      apply (((postTransfer_ensures db config.api scope newId body).mono (fun _ _ h => h)
        fun _ _ => trivial).and (postTransfer_addressed h config.api scope newId body)).mono
      · rintro response db' ⟨⟨request, _, hposted⟩, haddressed⟩
        exact hposted.proceeds h haddressed
      · exact fun _ _ => trivial
  | relay now publishError =>
      unfold stepTx
      apply Ensures.modifyDb
      exact .of_same rfl rfl (relayOnce_envelopes config.relay now publishError db.outbox) rfl
  | progress now =>
      apply Ensures.discard
      apply (progressOnce_ensures db now).mono
      · rintro _ _ rfl
        have hadvanced : ∀ t, SameTerms t (advanced now db.outbox t) ∧
            ((advanced now db.outbox t).status = t.status ∨
              (t.status = .created ∧ (advanced now db.outbox t).status = .processing)) := by
          intro t
          refine ⟨advanced_terms now db.outbox t, ?_⟩
          unfold advanced
          split
          next hadvances =>
            simp only [advances, Bool.and_eq_true, decide_eq_true_eq] at hadvances
            exact Or.inr ⟨hadvances.1, rfl⟩
          next => exact Or.inl rfl
        refine ⟨?_, ?_, fun w hw => hw, fun w hw => Or.inl hw,
          ⟨[], by rw [List.append_nil], by simp⟩, fun _ => Iff.rfl⟩
        · intro t ht
          exact ⟨_, List.mem_map_of_mem ht, (hadvanced t).1⟩
        · intro t' ht'
          obtain ⟨t, ht, rfl⟩ := List.mem_map.mp ht'
          exact Or.inl ⟨t, ht, hadvanced t⟩
      · exact fun _ _ => trivial
  | dispatch scope envelope => cases hs

theorem step_proceeds (h : Placed db) (config : Config) {s : Step}
    (hs : s.delivers = false) : Proceeds db (step config s db) := by
  apply commit_preserves (I := Proceeds db) (.of_same rfl rfl rfl rfl)
  exact stepTx_proceeds h config hs

end Steps

end CryptoWallet.Wallet
