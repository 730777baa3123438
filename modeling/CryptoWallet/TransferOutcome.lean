import CryptoWallet.WalletRedelivery

/-!
# The outcome of a transfer

The events about a transfer travel on separate streams and arrive in any order, and
the progress worker runs in between.  What becomes of an open transfer depends only on
which types of events arrived: it is failed if one of them says so, else confirmed,
else broadcasted.  The balances follow from the status.
-/

namespace CryptoWallet.Wallet

open Tx

/-! ## Statuses -/

/-- The status of a transfer once an event about it is handled. -/
def TransferStatus.after (status : TransferStatus) (eventType : EventType) : TransferStatus :=
  match eventType with
  | .txBroadcasted => if status.isOpen then .broadcasted else status
  | .txConfirmed => if status.isOpen then .confirmed else status
  | .txFailed => .failed
  | _ => status

/-- The types of the events which report on a transaction. -/
def reports : EventType → Bool
  | .txBroadcasted | .txConfirmed | .txFailed => true
  | _ => false

/-- What a transfer comes to by at least one event. -/
def outcome (eventTypes : List EventType) : TransferStatus :=
  if .txFailed ∈ eventTypes then .failed
  else if .txConfirmed ∈ eventTypes then .confirmed
  else .broadcasted

theorem outcome_cons_of_open {status : TransferStatus} {eventType : EventType}
    (hopen : status.isOpen = true) (hreports : reports eventType = true) :
    status.after eventType = outcome [eventType] := by
  cases eventType with
  | txBroadcasted | txConfirmed | txFailed => cases status <;> first | rfl | cases hopen
  | depositDetected | depositConfirmed | depositReorged | transferRequested | unknown _ =>
      cases hreports

theorem outcome_ne_created (eventTypes : List EventType) : outcome eventTypes ≠ .created := by
  unfold outcome
  split
  · decide
  · split <;> decide

theorem outcome_snoc {arrived : List EventType} (eventType : EventType)
    (hreports : reports eventType = true) :
    (outcome arrived).after eventType = outcome (arrived ++ [eventType]) := by
  unfold outcome
  by_cases hfailed : .txFailed ∈ arrived
  · cases eventType <;> simp [hfailed, TransferStatus.after, TransferStatus.isOpen]
  · by_cases hconfirmed : .txConfirmed ∈ arrived
    · cases eventType <;>
        simp_all [TransferStatus.after, TransferStatus.isOpen, reports]
    · cases eventType <;>
        simp_all [TransferStatus.after, TransferStatus.isOpen, reports]

theorem outcome_perm {eventTypes eventTypes' : List EventType}
    (h : eventTypes.Perm eventTypes') : outcome eventTypes = outcome eventTypes' := by
  unfold outcome
  simp only [h.mem_iff]

namespace TransferStatus

/-- What an event has brought about, another one does not take back. -/
theorem after_stays {status : TransferStatus} {eventType : EventType}
    (h : status.after eventType = status) (other : EventType) :
    (status.after other).after eventType = status.after other := by
  cases eventType <;> cases other <;> cases status <;> first | rfl | cases h

theorem after_after (status : TransferStatus) (eventType : EventType) :
    (status.after eventType).after eventType = status.after eventType := by
  cases eventType <;> cases status <;> rfl

theorem after_of_reached {status target : TransferStatus} {eventType : EventType}
    (htarget : TransferStatus.after .created eventType = target)
    (hrank : target.rank ≤ status.rank) : status.after eventType = status := by
  subst htarget
  cases eventType <;> cases status <;> first | rfl | (revert hrank; decide)

end TransferStatus

/-! ## What one transfer does to the balances -/

def movedAt (k : Account) (movements : List Movement) : Int :=
  (movements.map fun m => if (m.1, m.2.1) = k then m.2.2.1 else 0).sum

theorem entriesSum_eq_movedAt (k : Account) (entries : List LedgerEntry) :
    entriesSum k entries = movedAt k (entries.map LedgerEntry.movement) := by
  unfold entriesSum movedAt
  rw [List.map_map]
  rfl

theorem movedAt_perm (k : Account) {movements movements' : List Movement}
    (h : movements.Perm movements') : movedAt k movements = movedAt k movements' :=
  (h.map _).sum_eq

theorem movedAt_reversal (k : Account) (t : Transfer) :
    movedAt k (reversalMovements t) = -movedAt k (settlementMovements t) := by
  simp only [movedAt, reversalMovements, settlementMovements, List.map_cons, List.map_nil,
    List.sum_cons, List.sum_nil]
  split <;> split <;> ring

/-- What the transfer has moved, if it is settled. -/
def Transfer.movedBy (t : Transfer) (k : Account) : Int :=
  if t.status = .confirmed then movedAt k (settlementMovements t) else 0

/-- Compared with `db₀`, nothing but the transfer has moved. -/
structure Course (db₀ : Db) (t₀ : Transfer) (db : Db) (t : Transfer) : Prop where
  find : db.transfers.find? t₀.id = some t
  terms : SameTerms t₀ t
  posted : ∀ k, db.postedOf k = db₀.postedOf k - t₀.movedBy k + t.movedBy k
  reserved : ∀ k, db.reservedOf k = db₀.reservedOf k - t₀.held k + t.held k

section Course

variable {db₀ db db' : Db} {t₀ t t' : Transfer}

theorem Course.refl (hfind : db.transfers.find? t.id = some t) : Course db t db t where
  find := hfind
  terms := .refl t
  posted := by
    intro k
    ring
  reserved := by
    intro k
    ring

theorem Course.named (h : Course db₀ t₀ db t) {payload : Payload}
    (hid : namedId payload = some t₀.id) : db.named payload = some t := by
  simp only [Db.named, hid, Option.bind_some, h.find]

theorem Course.congr (h : Course db₀ t₀ db t) (htransfers : db'.transfers = db.transfers)
    (hbalances : db'.balances = db.balances) : Course db₀ t₀ db' t where
  find := by rw [htransfers, h.find]
  terms := h.terms
  posted := by
    intro k
    rw [← h.posted]
    simp only [Db.postedOf, hbalances]
  reserved := by
    intro k
    rw [← h.reserved]
    simp only [Db.reservedOf, hbalances]

theorem Course.of_transition (h : Course db₀ t₀ db t) {entries : List LedgerEntry}
    {hold : Account → Int} (htransition : Transition db db' t t' entries hold)
    (hentries : ∀ k, entriesSum k entries = t'.movedBy k - t.movedBy k)
    (hhold : ∀ k, hold k = t'.held k - t.held k) : Course db₀ t₀ db' t' := by
  obtain ⟨mid, hmoved, rfl⟩ := htransition.change
  have hfind : mid.transfers.find? t'.id = some t := by
    rw [hmoved.frame.transfers, htransition.terms.id, htransition.find]
  have hid : t'.id = t₀.id := htransition.terms.id.trans h.terms.id
  refine ⟨?_, h.terms.trans htransition.terms, ?_, ?_⟩
  · rw [← hid]
    exact Table.find?_replace_self mid.transfers hfind
  · intro k
    have hposted := hmoved.posted k
    rw [h.posted, hentries] at hposted
    have hsame : Db.postedOf { mid with transfers := mid.transfers.replace t' } k =
        mid.postedOf k := rfl
    rw [hsame, hposted]
    ring
  · intro k
    have hreserved := hmoved.reserved k
    rw [h.reserved, hhold] at hreserved
    have hsame : Db.reservedOf { mid with transfers := mid.transfers.replace t' } k =
        mid.reservedOf k := rfl
    rw [hsame, hreserved]
    ring

theorem movedBy_of_open (hopen : t.status.isOpen = true) (k : Account) :
    t.movedBy k = 0 := by
  unfold Transfer.movedBy
  rw [if_neg]
  intro hconfirmed
  rw [hconfirmed] at hopen
  cases hopen

theorem Batch.moves {t : Transfer} {postings : List Posting}
    {entries : List LedgerEntry} (h : Batch t postings entries) (k : Account) :
    entriesSum k entries =
      movedAt k (postings.map fun p => (p.userId, t.asset, p.amount, p.entryType)) := by
  rw [entriesSum_eq_movedAt]
  exact movedAt_perm k h.movements

theorem settlementMovements_same (h : SameTerms t t') :
    settlementMovements t' = settlementMovements t := by
  simp only [settlementMovements, h.fromUserId, h.toUserId, h.asset, h.amount]

/-! ## Events about the transfer -/

theorem Course.marked (h : Course db₀ t₀ db t) (hopen : t.status.isOpen = true)
    (hstatus : t'.status = .broadcasted) (htransition : Transition db db' t t' [] 0) :
    Course db₀ t₀ db' t' := by
  have hopen' : t'.status.isOpen = true := by rw [hstatus]; rfl
  apply h.of_transition htransition
  · intro k
    rw [movedBy_of_open hopen, movedBy_of_open hopen']
    rfl
  · intro k
    rw [held_of_open hopen, held_of_open hopen', htransition.terms.sender,
      htransition.terms.amount, sub_self]
    rfl

theorem Course.settled (hsound : Sound db) (h : Course db₀ t₀ db t) {scope : Scope}
    {candidates : List LedgerEntry} (hopen : t.status.isOpen = true)
    (hstatus : t'.status = .confirmed)
    (hcandidates : List.Forall₂ (EntryOf scope t.asset)
      (sortPostings (settlementPostings t)) candidates)
    (htransition : Transition db db' t t' (unabsorbed db.entryKeys candidates)
      (holdAt t.sender (-t.amount))) : Course db₀ t₀ db' t' := by
  have ht := Table.mem_of_find? htransition.find
  have hbatch := batch_of_entries (settlementPostings_reference t) hcandidates
  rw [hsound.settlement_unabsorbed ht hopen hbatch] at htransition
  have hclosed : t'.status.isOpen = false := by rw [hstatus]; rfl
  apply h.of_transition htransition
  · intro k
    rw [hbatch.moves, movedBy_of_open hopen, sub_zero, Transfer.movedBy, if_pos hstatus,
      settlementMovements_same htransition.terms]
    rfl
  · intro k
    rw [held_of_open hopen, held_of_closed hclosed, holdAt_neg, zero_sub]

theorem Course.failedOpen (h : Course db₀ t₀ db t) (hopen : t.status.isOpen = true)
    (hstatus : t'.status = .failed)
    (htransition : Transition db db' t t' [] (holdAt t.sender (-t.amount))) :
    Course db₀ t₀ db' t' := by
  have hclosed : t'.status.isOpen = false := by rw [hstatus]; rfl
  have hunsettled : t'.status ≠ .confirmed := by rw [hstatus]; decide
  apply h.of_transition htransition
  · intro k
    rw [movedBy_of_open hopen, Transfer.movedBy, if_neg hunsettled]
    rfl
  · intro k
    rw [held_of_open hopen, held_of_closed hclosed, holdAt_neg, zero_sub]

theorem Course.reversed (hsound : Sound db) (h : Course db₀ t₀ db t) {scope : Scope}
    {candidates : List LedgerEntry} (hconfirmed : t.status = .confirmed)
    (hstatus : t'.status = .failed)
    (hcandidates : List.Forall₂ (EntryOf scope t.asset)
      (sortPostings (reversalPostings t)) candidates)
    (htransition : Transition db db' t t' (unabsorbed db.entryKeys candidates) 0) :
    Course db₀ t₀ db' t' := by
  have ht := Table.mem_of_find? htransition.find
  have hbatch := batch_of_entries (reversalPostings_reference t) hcandidates
  rw [hsound.reversal_unabsorbed ht hconfirmed hbatch] at htransition
  have hclosed : t.status.isOpen = false := by rw [hconfirmed]; rfl
  have hclosed' : t'.status.isOpen = false := by rw [hstatus]; rfl
  have hunsettled : t'.status ≠ .confirmed := by rw [hstatus]; decide
  apply h.of_transition htransition
  · intro k
    have hreversal : reversalMovements t = (reversalPostings t).map fun p =>
        (p.userId, t.asset, p.amount, p.entryType) := rfl
    rw [hbatch.moves, ← hreversal, movedAt_reversal, Transfer.movedBy, if_neg hunsettled,
      Transfer.movedBy, if_pos hconfirmed, zero_sub]
  · intro k
    rw [held_of_closed hclosed, held_of_closed hclosed', sub_self]
    rfl

/-- Handling an event about the transfer moves it, and nothing else. -/
theorem Course.handle (hsound : Sound db) (h : Course db₀ t₀ db t) (scope : Scope)
    {eventType : EventType} (hreports : reports eventType = true) {payload : Payload}
    (hid : namedId payload = some t₀.id) :
    Ensures (handle scope eventType payload) db
      (fun _ db' => ∃ t', Course db₀ t₀ db' t' ∧ t'.status = t.status.after eventType)
      fun _ => True := by
  have hnamed := h.named hid
  have hidle : ∀ {db' : Db} {target : TransferStatus}, db' = db →
      TransferStatus.after .created eventType = target → db.Reached payload target →
      ∃ t', Course db₀ t₀ db' t' ∧ t'.status = t.status.after eventType := by
    rintro _ target rfl htarget hreached
    exact ⟨t, h, (TransferStatus.after_of_reached htarget (hreached t hnamed)).symm⟩
  have hsame : ∀ {row : Transfer}, db.named payload = some row → row = t := by
    intro row hrow
    rw [hnamed] at hrow
    exact (Option.some.inj hrow).symm
  cases eventType with
  | txBroadcasted =>
      apply (markBroadcasted_ensures db scope payload).mono ?_ (fun _ _ => trivial)
      rintro _ db' (⟨hdb, hreached⟩ | ⟨row, t', hrow, hopen, hstatus, htransition⟩)
      · exact hidle hdb rfl hreached
      · obtain rfl := hsame hrow
        refine ⟨t', h.marked hopen hstatus htransition, ?_⟩
        rw [hstatus, TransferStatus.after, if_pos hopen]
  | txConfirmed =>
      apply (settleTransfer_ensures hsound.holdsCovered scope payload).mono ?_
        (fun _ _ => trivial)
      rintro _ db' (⟨hdb, hreached⟩ | ⟨row, t', candidates, hrow, hopen, hstatus, hc,
        htransition⟩)
      · exact hidle hdb rfl hreached
      · obtain rfl := hsame hrow
        refine ⟨t', h.settled hsound hopen hstatus hc htransition, ?_⟩
        rw [hstatus, TransferStatus.after, if_pos hopen]
  | txFailed =>
      apply (failTransfer_ensures hsound.holdsCovered scope payload).mono ?_
        (fun _ _ => trivial)
      rintro _ db' (⟨hdb, hreached⟩ | ⟨row, t', hrow, hstatus, hcases⟩)
      · exact hidle hdb rfl hreached
      · obtain rfl := hsame hrow
        rcases hcases with ⟨hopen, htransition⟩ | ⟨hconfirmed, candidates, hc, htransition⟩
        · exact ⟨t', h.failedOpen hopen hstatus htransition, hstatus⟩
        · exact ⟨t', h.reversed hsound hconfirmed hstatus hc htransition, hstatus⟩
  | depositDetected | depositConfirmed | depositReorged | transferRequested | unknown _ =>
      cases hreports

/-- A delivery which returns is a repeat, or it is recorded and handled. -/
theorem Course.dispatch (hsound : Sound db) (h : Course db₀ t₀ db t) (scope : Scope)
    {envelope : Envelope} (hreports : reports envelope.eventType = true)
    (hid : namedId envelope.payload = some t₀.id) :
    Ensures (Wallet.dispatch scope envelope) db
      (fun _ db' => (db' = db ∧ db.Recorded envelope.eventId) ∨
        (∃ t', Course db₀ t₀ db' t' ∧ t'.status = t.status.after envelope.eventType) ∧
          ∀ id, db'.Recorded id → db.Recorded id ∨ id = envelope.eventId)
      fun _ => True := by
  unfold Wallet.dispatch
  apply Ensures.bind ((claimEvent_ensures db envelope).mono (fun _ _ h => h)
    (fun _ _ => trivial))
  rintro claimed db₁ (⟨rfl, rfl, hrecorded⟩ | ⟨rfl, processedEvents, hinsert, rfl⟩)
  · exact Ensures.pure (Or.inl ⟨rfl, hrecorded⟩)
  · have hsound₁ : Sound { db with processedEvents } := hsound.congr rfl rfl rfl
    have hcourse₁ : Course db₀ t₀ { db with processedEvents } t := h.congr rfl rfl
    apply ((hcourse₁.handle hsound₁ (deliveryScope scope envelope) hreports hid).and
      (handle_handled hsound₁ (deliveryScope scope envelope) envelope.eventType
        envelope.payload)).mono ?_ (fun _ _ => trivial)
    rintro _ db' ⟨hcourse, hhandled⟩
    exact Or.inr ⟨hcourse, fun _ h =>
      recorded_of_insert hinsert hhandled.processedEvents h⟩

theorem Course.progressed (h : Course db₀ t₀ db t) (now : Nat) :
    Course db₀ t₀ { db with
      transfers := db.transfers.mapRows (advanced now db.outbox)
        (advanced_id now db.outbox) } (advanced now db.outbox t) := by
  have hterms := advanced_terms now db.outbox t
  have hclosed : (advanced now db.outbox t).status = .confirmed ↔ t.status = .confirmed := by
    unfold advanced
    split
    next hadvances =>
      simp only [advances, Bool.and_eq_true, decide_eq_true_eq] at hadvances
      simp [hadvances.1]
    next => rfl
  refine ⟨?_, h.terms.trans hterms, ?_, ?_⟩
  · apply (Table.find?_eq_some_iff _).mpr
    refine ⟨List.mem_map_of_mem (Table.mem_of_find? h.find), ?_⟩
    rw [advanced_id]
    exact Table.key_of_find? h.find
  · intro k
    have hmoved : (advanced now db.outbox t).movedBy k = t.movedBy k := by
      simp only [Transfer.movedBy, hclosed, settlementMovements_same hterms]
    rw [hmoved]
    exact h.posted k
  · intro k
    have hheld : (advanced now db.outbox t).held k = t.held k := by
      unfold Transfer.held
      rw [advanced_isOpen, hterms.sender, hterms.amount]
    rw [hheld]
    exact h.reserved k

end Course

/-! ## Runs -/

/-- A round of the progress worker, or a delivery of an event about the transfer. -/
def Step.About (id : Uuid) : Step → Prop
  | .progress _ => True
  | .dispatch _ envelope =>
    reports envelope.eventType = true ∧ namedId envelope.payload = some id
  | _ => False

instance (transferId : Uuid) (s : Step) : Decidable (s.About transferId) :=
  match s with
  | .progress _ => .isTrue trivial
  | .dispatch _ _ => inferInstanceAs (Decidable (_ ∧ _))
  | .createUser _ _ _ | .attachWallet _ _ _ _ _ | .createTransfer _ _ _
  | .postTransfer _ _ _ | .relay _ _ => .isFalse id

/-- The step does not raise. -/
def Step.Returns (config : Config) (db : Db) (s : Step) : Prop :=
  (commit (stepTx config s) db).1.isOk = true

instance (config : Config) (db : Db) (s : Step) : Decidable (s.Returns config db) :=
  inferInstanceAs (Decidable (_ = true))

theorem Step.Returns.post {config : Config} {db : Db} {s : Step} {I : Db → Prop}
    {raises : Failure → Prop} (h : s.Returns config db)
    (hensures : Ensures (stepTx config s) db (fun _ => I) raises) : I (step config s db) := by
  unfold Step.Returns at h
  unfold step
  cases hcommit : commit (stepTx config s) db with
  | mk result db' =>
      cases result with
      | ok a => exact hensures.commit_ok hcommit
      | error e =>
          rw [hcommit] at h
          cases h

def deliveries (steps : List Step) : List Delivery :=
  steps.filterMap fun s =>
    match s with
    | .dispatch scope envelope => some ⟨scope, envelope⟩
    | _ => none

def delivered (steps : List Step) : List Envelope := (deliveries steps).map Delivery.envelope

/-- The transfer after some of the events were delivered. -/
structure Arrived (db₀ : Db) (t₀ : Transfer) (events : List Envelope)
    (arrived : List EventType) (db : Db) (t : Transfer) : Prop where
  sound : Sound db
  course : Course db₀ t₀ db t
  isOpen : arrived = [] → t.status.isOpen = true
  status : arrived ≠ [] → t.status = outcome arrived
  recorded : ∀ envelope ∈ events, db.Recorded envelope.eventId →
    t.status.after envelope.eventType = t.status

section Runs

variable {config : Config} {db₀ db : Db} {t₀ t : Transfer} {events : List Envelope}
  {arrived : List EventType}

theorem Arrived.progressed (h : Arrived db₀ t₀ events arrived db t) (now : Nat) :
    Arrived db₀ t₀ events arrived (step config (.progress now) db)
      (advanced now db.outbox t) := by
  have hstep : step config (.progress now) db = { db with
      transfers := db.transfers.mapRows (advanced now db.outbox)
        (advanced_id now db.outbox) } := rfl
  have hcases : (advanced now db.outbox t).status = t.status ∨
      t.status = .created ∧ (advanced now db.outbox t).status = .processing := by
    unfold advanced
    split
    next hadvances =>
      simp only [advances, Bool.and_eq_true, decide_eq_true_eq] at hadvances
      exact Or.inr ⟨hadvances.1, rfl⟩
    next => exact Or.inl rfl
  refine ⟨step_sound h.sound config _, hstep ▸ h.course.progressed now, ?_, ?_, ?_⟩
  · intro hnone
    rw [advanced_isOpen]
    exact h.isOpen hnone
  · intro hsome
    rcases hcases with hsame | ⟨hcreated, _⟩
    · rw [hsame]
      exact h.status hsome
    · exact absurd ((h.status hsome).symm.trans hcreated) (outcome_ne_created arrived)
  · intro envelope henvelope hrecorded
    have hstays := h.recorded envelope henvelope hrecorded
    rcases hcases with hsame | ⟨hcreated, hprocessing⟩
    · rw [hsame]
      exact hstays
    · rw [hcreated] at hstays
      rw [hprocessing]
      revert hstays
      cases envelope.eventType <;> first | exact fun _ => rfl | (intro h; cases h)

theorem Arrived.delivered (h : Arrived db₀ t₀ events arrived db t) {scope : Scope}
    {envelope : Envelope} (hreports : reports envelope.eventType = true)
    (hid : namedId envelope.payload = some t₀.id)
    (hreturns : Step.Returns config db (.dispatch scope envelope))
    (hmem : envelope ∈ events)
    (hids : ∀ envelope' ∈ events, envelope'.eventId = envelope.eventId →
      envelope'.eventType = envelope.eventType) :
    ∃ t', Arrived db₀ t₀ events (arrived ++ [envelope.eventType])
      (step config (.dispatch scope envelope) db) t' := by
  have hsound := step_sound h.sound config (.dispatch scope envelope)
  have hafter : t.status.after envelope.eventType = outcome (arrived ++ [envelope.eventType]) := by
    by_cases hnone : arrived = []
    · subst hnone
      exact outcome_cons_of_open (h.isOpen rfl) hreports
    · rw [h.status hnone]
      exact outcome_snoc envelope.eventType hreports
  have hsome : arrived ++ [envelope.eventType] ≠ [] := by simp
  have hdispatch := hreturns.post
    (Wallet.Ensures.discard (h.course.dispatch h.sound scope hreports hid))
  rcases hdispatch with ⟨hsame, hrecorded⟩ | ⟨⟨t', hcourse, hstatus⟩, hrecorded⟩
  · have hstays := h.recorded envelope hmem hrecorded
    refine ⟨t, hsound, by rw [hsame]; exact h.course, fun hnone => absurd hnone hsome, ?_, ?_⟩
    · exact fun _ => hstays.symm.trans hafter
    · rw [hsame]
      exact h.recorded
  · refine ⟨t', hsound, hcourse, fun hnone => absurd hnone hsome, ?_, ?_⟩
    · exact fun _ => hstatus.trans hafter
    · intro other hother hnew
      rw [hstatus]
      rcases hrecorded _ hnew with hold | hsame
      · exact TransferStatus.after_stays (h.recorded other hother hold) envelope.eventType
      · rw [hids other hother hsame]
        exact TransferStatus.after_after t.status envelope.eventType

theorem Arrived.run {steps : List Step} (h : Arrived db₀ t₀ events arrived db t)
    (habout : ∀ s ∈ steps, s.About t₀.id)
    (hreturns : AdmittedRun (step config) (Step.Returns config) db steps)
    (hevents : ∀ envelope ∈ Wallet.delivered steps, envelope ∈ events)
    (hids : ∀ envelope ∈ events, ∀ envelope' ∈ events,
      envelope'.eventId = envelope.eventId → envelope'.eventType = envelope.eventType) :
    ∃ t', Arrived db₀ t₀ events
      (arrived ++ (Wallet.delivered steps).map Envelope.eventType)
      (runSteps (step config) db steps) t' := by
  induction steps generalizing db arrived t with
  | nil => exact ⟨t, by simpa [Wallet.delivered, deliveries] using h⟩
  | cons s rest ih =>
      have hrest : ∀ s' ∈ rest, s'.About t₀.id :=
        fun s' hs' => habout s' (List.mem_cons_of_mem s hs')
      have hs := habout s List.mem_cons_self
      cases s with
      | progress now =>
          exact ih (h.progressed now) hrest hreturns.2 hevents
      | dispatch scope envelope =>
          have hmem : envelope ∈ events := hevents envelope List.mem_cons_self
          obtain ⟨t', ht'⟩ := h.delivered hs.1 hs.2 hreturns.1 hmem
            fun envelope' henvelope' => hids envelope hmem envelope' henvelope'
          obtain ⟨t'', ht''⟩ := ih ht' hrest hreturns.2
            fun other hother => hevents other (List.mem_cons_of_mem envelope hother)
          refine ⟨t'', ?_⟩
          rw [List.append_assoc] at ht''
          exact ht''
      | createUser _ _ _ | attachWallet _ _ _ _ _ | createTransfer _ _ _ | postTransfer _ _ _
      | relay _ _ => cases hs

/-- Events which were handled before have done what they do. -/
theorem arrived_start {history steps : List Step}
    (hids : IdsNameFacts (envelopes history ++ Wallet.delivered steps))
    (hknown : HandledWhenKnown config history (deliveries steps))
    (habout : ∀ s ∈ steps, s.About t.id) (ht : t ∈ (Wallet.run config history).transfers.rows)
    (hopen : t.status.isOpen = true) :
    Arrived (Wallet.run config history) t (Wallet.delivered steps) []
      (Wallet.run config history) t := by
  have hfind : (Wallet.run config history).transfers.find? t.id = some t :=
    Table.find?_of_mem _ ht
  refine ⟨run_sound config history, .refl hfind, fun _ => hopen, fun h => absurd rfl h, ?_⟩
  intro envelope henvelope hrecorded
  obtain ⟨d, hd, rfl⟩ := List.mem_map.mp henvelope
  have habsorbed := absorbed_of_recorded hids hknown hd hrecorded
  obtain ⟨s, hs, hdelivery⟩ := List.mem_filterMap.mp hd
  have hs' := habout s hs
  cases s with
  | dispatch scope envelope =>
      cases hdelivery
      have hnamed : (Wallet.run config history).named envelope.payload = some t := by
        simp only [Db.named, hs'.2, Option.bind_some, hfind]
      have hreports := hs'.1
      simp only at habsorbed ⊢
      cases htype : envelope.eventType with
      | txBroadcasted | txConfirmed | txFailed =>
          rw [htype] at habsorbed
          exact TransferStatus.after_of_reached rfl (habsorbed t hnamed)
      | depositDetected | depositConfirmed | depositReorged | transferRequested | unknown _ =>
          rw [htype] at hreports
          cases hreports
  | progress _ | createUser _ _ _ | attachWallet _ _ _ _ _ | createTransfer _ _ _
  | postTransfer _ _ _ | relay _ _ => cases hdelivery

/-- The end of a run in which at least one event is delivered. -/
theorem arrived_end {history steps : List Step}
    (ht : t ∈ (Wallet.run config history).transfers.rows) (hopen : t.status.isOpen = true)
    (habout : ∀ s ∈ steps, s.About t.id) (hsome : Wallet.delivered steps ≠ [])
    (hids : IdsNameFacts (envelopes history ++ Wallet.delivered steps))
    (hknown : HandledWhenKnown config history (deliveries steps))
    (hreturns : AdmittedRun (step config) (Step.Returns config) (Wallet.run config history)
      steps) :
    ∃ t', Course (Wallet.run config history) t (Wallet.run config (history ++ steps)) t' ∧
      t'.status = outcome ((Wallet.delivered steps).map Envelope.eventType) := by
  have hfacts : ∀ envelope ∈ Wallet.delivered steps, ∀ envelope' ∈ Wallet.delivered steps,
      envelope'.eventId = envelope.eventId → envelope'.eventType = envelope.eventType := by
    intro envelope henvelope envelope' henvelope' hid
    have hsame := hids envelope' (List.mem_append_right _ henvelope') envelope
      (List.mem_append_right _ henvelope) hid
    simp only [Envelope.sameFact, Bool.and_eq_true, decide_eq_true_eq] at hsame
    exact hsame.1
  obtain ⟨t', ht'⟩ := (arrived_start hids hknown habout ht hopen).run habout hreturns
    (fun _ h => h) hfacts
  rw [run_append]
  refine ⟨t', ht'.course, ht'.status ?_⟩
  simpa using hsome

end Runs

theorem Course.alike {db₀ db db' : Db} {t₀ t t' : Transfer} (h : Course db₀ t₀ db t)
    (h' : Course db₀ t₀ db' t') (hstatus : t.status = t'.status) (k : Account) :
    db.postedOf k = db'.postedOf k ∧ db.reservedOf k = db'.reservedOf k := by
  have hmoved : t.movedBy k = t'.movedBy k := by
    simp only [Transfer.movedBy, hstatus, settlementMovements_same h.terms,
      settlementMovements_same h'.terms]
  have hheld : t.held k = t'.held k := by
    simp only [Transfer.held, hstatus, h.terms.sender, h'.terms.sender, h.terms.amount,
      h'.terms.amount]
  rw [h.posted, h'.posted, hmoved, h.reserved, h'.reserved, hheld]
  exact ⟨rfl, rfl⟩

/-- Two orders of the events of an open transfer end alike. -/
theorem outcome_ignores_order (config : Config) (history : List Step) {t : Transfer}
    (ht : t ∈ (run config history).transfers.rows) (hopen : t.status.isOpen = true)
    {steps steps' : List Step} (habout : ∀ s ∈ steps ++ steps', s.About t.id)
    (hperm : (delivered steps).Perm (delivered steps')) (hsome : delivered steps ≠ [])
    (hids : IdsNameFacts (envelopes history ++ delivered steps))
    (hknown : HandledWhenKnown config history (deliveries steps))
    (hreturns : AdmittedRun (step config) (Step.Returns config) (run config history) steps)
    (hreturns' : AdmittedRun (step config) (Step.Returns config) (run config history) steps') :
    (∀ k, (run config (history ++ steps)).postedOf k =
        (run config (history ++ steps')).postedOf k ∧
      (run config (history ++ steps)).reservedOf k =
        (run config (history ++ steps')).reservedOf k) ∧
    ∀ ending ∈ [steps, steps'],
      ∃ row ∈ (run config (history ++ ending)).transfers.rows, row.id = t.id ∧
        row.status = outcome ((delivered steps).map Envelope.eventType) := by
  have habout₁ : ∀ s ∈ steps, s.About t.id := fun s hs => habout s (List.mem_append_left _ hs)
  have habout₂ : ∀ s ∈ steps', s.About t.id :=
    fun s hs => habout s (List.mem_append_right _ hs)
  have hsome' : delivered steps' ≠ [] := by
    intro hnone
    rw [hnone] at hperm
    exact hsome hperm.eq_nil
  have hids' : IdsNameFacts (envelopes history ++ delivered steps') := by
    have hmem : ∀ envelope ∈ envelopes history ++ delivered steps',
        envelope ∈ envelopes history ++ delivered steps :=
      fun _ h => (hperm.symm.append_left _).subset h
    exact fun envelope h envelope' h' => hids envelope (hmem _ h) envelope' (hmem _ h')
  have hknown' : HandledWhenKnown config history (deliveries steps') := by
    intro before scope envelope after hhistory hsent
    obtain ⟨d, hd, hid⟩ := hsent
    have hmem : d.envelope ∈ delivered steps := hperm.symm.subset (List.mem_map_of_mem hd)
    obtain ⟨d', hd', hsame⟩ := List.mem_map.mp hmem
    exact hknown before scope envelope after hhistory ⟨d', hd', by rw [hsame, hid]⟩
  obtain ⟨t₁, hcourse₁, hstatus₁⟩ := arrived_end ht hopen habout₁ hsome hids hknown hreturns
  obtain ⟨t₂, hcourse₂, hstatus₂⟩ := arrived_end ht hopen habout₂ hsome' hids' hknown' hreturns'
  rw [← outcome_perm (hperm.map Envelope.eventType)] at hstatus₂
  refine ⟨hcourse₁.alike hcourse₂ (hstatus₁.trans hstatus₂.symm), ?_⟩
  intro ending hending
  rcases List.mem_cons.mp hending with rfl | hlast
  · exact ⟨t₁, Table.mem_of_find? hcourse₁.find, hcourse₁.terms.id, hstatus₁⟩
  · obtain rfl := List.mem_singleton.mp hlast
    exact ⟨t₂, Table.mem_of_find? hcourse₂.find, hcourse₂.terms.id, hstatus₂⟩

/-! ### Events of one transfer -/

def reportOf (id : EventId) (eventType : EventType) (code : String) : Step :=
  .dispatch spentScope ⟨id, eventType, "blockchain-service", "",
    [("transfer_id", .str (someUuid 3).str), ("code", .str code)], []⟩

/-- The transfer which spends the deposit. -/
def statusAfter (steps : List Step) : Option TransferStatus :=
  ((run spentConfig steps).transfers.find? (someUuid 3)).map Transfer.status

def publishedSteps : List Step := spentSteps ++ [.relay 0 fun _ => none]

def earlyReport : Step := reportOf (.uuid4 7) .txFailed "STUCK"

def oversizedReport : Step := reportOf (.uuid4 8) .txFailed ("".pushn 'x' 65)

/-- Without events the status depends on the worker.  An event which came before its
transfer was ignored and is not handled again; one whose code does not fit its column
raises. -/
theorem outcome_needs_a_handled_report :
    (statusAfter publishedSteps = some .created ∧
      statusAfter (publishedSteps ++ [.progress 0]) = some .processing) ∧
    (statusAfter (earlyReport :: spentSteps) = some .created ∧
      earlyReport.Returns spentConfig (run spentConfig (earlyReport :: spentSteps)) ∧
      statusAfter (earlyReport :: spentSteps ++ [earlyReport]) = some .created) ∧
    ((commit (stepTx spentConfig oversizedReport) (run spentConfig spentSteps)).1 =
        .error .dataError ∧
      statusAfter (spentSteps ++ [oversizedReport]) = some .created) := by
  decide +kernel

def reportsInOrder : List Step :=
  [reportOf (.uuid4 8) .txBroadcasted "", .progress 1, reportOf (.uuid4 9) .txConfirmed "",
    reportOf (.uuid4 10) .txFailed "REORGED"]

def reportsReversed : List Step :=
  [.progress 1, reportOf (.uuid4 10) .txFailed "REORGED",
    reportOf (.uuid4 9) .txConfirmed "", reportOf (.uuid4 8) .txBroadcasted ""]

theorem failed_in_either_order :
    (∀ k, (run spentConfig (publishedSteps ++ reportsInOrder)).postedOf k =
        (run spentConfig (publishedSteps ++ reportsReversed)).postedOf k ∧
      (run spentConfig (publishedSteps ++ reportsInOrder)).reservedOf k =
        (run spentConfig (publishedSteps ++ reportsReversed)).reservedOf k) ∧
    ∀ ending ∈ [reportsInOrder, reportsReversed],
      ∃ row ∈ (run spentConfig (publishedSteps ++ ending)).transfers.rows, row.id = someUuid 3 ∧
        row.status = .failed := by
  obtain ⟨t, ht, hid, hopen⟩ : ∃ t ∈ (run spentConfig publishedSteps).transfers.rows,
      t.id = someUuid 3 ∧ t.status.isOpen = true := by decide +kernel
  have habout : ∀ s ∈ reportsInOrder ++ reportsReversed, s.About t.id := by
    rw [hid]
    decide
  have hperm : (delivered reportsInOrder).Perm (delivered reportsReversed) :=
    (List.reverse_perm _).symm
  have hids : IdsNameFacts (envelopes publishedSteps ++ delivered reportsInOrder) := by
    unfold IdsNameFacts
    decide
  have hknown : HandledWhenKnown spentConfig publishedSteps (deliveries reportsInOrder) := by
    rintro before scope envelope after hhistory ⟨d, hd, hid⟩ _
    have hmem : Step.dispatch scope envelope ∈ publishedSteps := by
      rw [hhistory]
      simp
    simp only [publishedSteps, spentSteps, List.cons_append, List.nil_append, List.mem_cons,
      Step.dispatch.injEq, reduceCtorEq, List.not_mem_nil, or_false, false_or] at hmem
    obtain ⟨rfl, rfl⟩ := hmem
    have hfresh : ∀ d ∈ deliveries reportsInOrder, d.envelope.eventId ≠ .uuid4 1 := by decide
    exact absurd hid (hfresh d hd)
  have h := outcome_ignores_order spentConfig publishedSteps ht hopen habout hperm (by decide)
    hids hknown (by decide +kernel) (by decide +kernel)
  rw [hid] at h
  exact h

end CryptoWallet.Wallet
