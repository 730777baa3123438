import CryptoWallet.DepositSettlement
import CryptoWallet.HandledEvents

/-!
# A deposit which was confirmed and then orphaned

The confirmation and the reversal of a deposit travel on two streams.  Each posts its
amount once, in any order; a reversal which comes first needs other money of the
account.  If neither is given up, the account is where it was.
-/

namespace CryptoWallet

open Tx
open Blockchain (Deposit depositPayload proposedDeposit confirmedEvent confirmedEventId
  reorgedEvent reorgedEventId)
open Wallet (EntryType LedgerEntry WalletRow)

/-- The row when it was confirmed, and when its block was orphaned; between them it may
have moved to another block. -/
structure ReversedDeposit where
  confirmed : Deposit
  reorged : Deposit
  confirmScope : Scope
  reorgScope : Scope
  confirmations : Nat × Nat
  confirmPayload : Payload
  reorgPayload : Payload
  sameLog : confirmed.SameLog reorged
  wasConfirmed : reorged.status = .confirmed
  confirmFits : depositPayload confirmed confirmations.1 = .ok confirmPayload
  reorgFits : depositPayload reorged confirmations.2 = .ok reorgPayload

/-- The two events of such a deposit. -/
inductive Part where
  | credit
  | reversal
  deriving DecidableEq

namespace ReversedDeposit

variable (r : ReversedDeposit)

def row : Part → Deposit
  | .credit => r.confirmed
  | .reversal => r.reorged

def event : Part → Envelope
  | .credit => confirmedEvent r.confirmScope r.confirmed r.confirmPayload
  | .reversal => reorgedEvent r.reorgScope r.reorged r.reorgPayload

def units : Part → Int
  | .credit => r.confirmed.amount
  | .reversal => -r.confirmed.amount

def reference (part : Part) : String :=
  DepositId.inBlock r.confirmed.identity (r.row part).blockHash

/-- The ledger entries of the deposit, in whatever block. -/
def entries (db : Wallet.Db) : List LedgerEntry :=
  db.depositEntries.filter fun e => r.confirmed.identity.refers e.referenceId

def entrySum (db : Wallet.Db) : Int := ((r.entries db).map LedgerEntry.amount).sum

/-- What the recorded events post. -/
def told (db : Wallet.Db) : Int :=
  (if db.Recorded (r.event .credit).eventId then r.units .credit else 0) +
    if db.Recorded (r.event .reversal).eventId then r.units .reversal else 0

/-- The wallet at the address of the deposit. -/
def PaidTo (w : WalletRow) (db : Wallet.Db) : Prop :=
  db.wallets.rows.find? (·.address = r.confirmed.toAddress.val) = some w ∧
    ∃ user, db.users.find? w.userId = some user

def account (w : WalletRow) : Wallet.Account := (w.userId, r.confirmed.asset.val)

end ReversedDeposit

def Part.entryType : Part → EntryType
  | .credit => .deposit
  | .reversal => .reversal

namespace ReversedDeposit

/-- Neither event has been recorded, and the ledger has not the entry of either. -/
def Untouched (r : ReversedDeposit) (db : Wallet.Db) : Prop :=
  ∀ part, ¬db.Recorded (r.event part).eventId ∧
    ∀ e ∈ r.entries db, e.entryType = part.entryType → e.referenceId ≠ r.reference part

variable {r : ReversedDeposit} {part : Part} {db db' : Wallet.Db} {w : WalletRow}

theorem event_eventId (r : ReversedDeposit) (part : Part) : (r.event part).eventId =
    entryEventId part.entryType r.confirmed.identity (r.row part).blockHash := by
  cases part with
  | credit =>
      exact Blockchain.confirmedEvent_eventId r.confirmScope r.confirmed r.confirmPayload
  | reversal =>
      have hid := Blockchain.reorgedEvent_eventId r.reorgScope r.reorged r.reorgPayload
      rw [r.sameLog.identity] at hid
      exact hid

theorem eventId_ne (r : ReversedDeposit) :
    (r.event .credit).eventId ≠ (r.event .reversal).eventId := by
  rw [event_eventId, event_eventId]
  exact Blockchain.confirmedEventId_ne_reorged _ _ _ _

theorem eventId_inj {part' : Part}
    (h : (r.event part).eventId = (r.event part').eventId) : part = part' := by
  cases part <;> cases part'
  · rfl
  · exact absurd h r.eventId_ne
  · exact absurd h.symm r.eventId_ne
  · rfl

/-! ## Handling one of the events -/

/-- Either event posts its units to the owner of the address. -/
theorem handle_posts (r : ReversedDeposit) (part : Part) (scope : Scope) (db : Wallet.Db) :
    Ensures (Wallet.handle scope (r.event part).eventType (r.event part).payload) db
      (fun _ db' => PostsFor r.confirmed part.entryType (r.units part)
        (r.row part).blockHash db db') fun _ => True := by
  cases part with
  | credit =>
      obtain ⟨hcarries, hreference⟩ := depositPayload_carries r.confirmFits
      exact creditDeposit_posts hcarries hreference
  | reversal =>
      obtain ⟨hcarries, hconfirmed, hreference⟩ :=
        reorgedPayload_carries r.reorgFits (r.reorged.status = .confirmed)
          r.reorged.blockHash
      apply (reverseDeposit_posts hcarries hconfirmed hreference).mono ?_ (fun _ h => h)
      rintro _ db' (⟨hopen, _⟩ | ⟨_, hposts⟩)
      · simp [r.wasConfirmed] at hopen
      · unfold PostsFor at hposts ⊢
        rw [r.sameLog.toAddress] at hposts
        rcases hposts with hnone | ⟨w, e, hw, hentry, hmoved⟩
        · exact Or.inl hnone
        · refine Or.inr ⟨w, e, hw, ?_, hmoved⟩
          have hamount := hentry.amount
          rw [r.sameLog.amount] at hamount
          refine ⟨hentry.userId, ?_, hamount, hentry.entryType, hentry.referenceType, ?_⟩
          · rw [hentry.asset, r.sameLog.asset]
          · rw [hentry.referenceId, r.sameLog.identity]
            rfl

theorem reverseDeposit_succeeds {d : Deposit} {confirmations : Nat} {payload : Payload}
    (howners : ∀ wallet, db.wallets.rows.find? (·.address = d.toAddress.val) = some wallet →
      ∃ user, db.users.find? wallet.userId = some user)
    (hcovered : ∀ wallet, db.wallets.rows.find? (·.address = d.toAddress.val) = some wallet →
      0 ≤ db.availableOf (wallet.userId, d.asset.val) + -d.amount)
    (hpayload : depositPayload d confirmations = .ok payload) {scope : Scope}
    {correlationId : Option String}
    (hcorrelation : Wallet.bindCorrelation scope = .ok correlationId) :
    Ensures (Wallet.reverseDeposit scope
      (Blockchain.reorgedPayload payload (d.status = .confirmed) d.blockHash)) db
      (fun _ _ => True) fun _ => False := by
  obtain ⟨hcarries, hconfirmed, hreference⟩ :=
    reorgedPayload_carries hpayload (d.status = .confirmed) d.blockHash
  have hamount : pyIntOf (.str (toString (d.amount : Int))) = .ok (d.amount : Int) := by
    simp only [pyIntOf, Json.toInt?, pyInt_toString d.amountFits]
  unfold Wallet.reverseDeposit
  rw [hconfirmed]
  split
  · exact Ensures.pure trivial
  · rw [hcarries.toAddress]
    refine Ensures.orRaise_ok ?_
    apply Ensures.bind (walletByAddress_succeeds d.toAddress.property.2)
    rintro _ db' ⟨rfl, rfl⟩
    split
    next => exact Ensures.pure trivial
    next wallet hwallet =>
      rw [hcarries.amountUnits]
      refine Ensures.orRaise_ok ?_
      rw [hamount]
      refine Ensures.orRaise_ok ?_
      rw [hreference]
      refine Ensures.orRaise_ok ?_
      rw [hcarries.asset]
      refine Ensures.orRaise_ok ?_
      have hpositive := d.amountPositive
      exact entryPosting_succeeds (howners wallet hwallet) .reversal (by omega)
        (hcovered wallet hwallet) hcorrelation

/-- The event is handled when the available balance covers it. -/
theorem handle_succeeds (hpaid : r.PaidTo w db)
    (hcovered : 0 ≤ db.availableOf (r.account w) + r.units part) {scope : Scope}
    {correlationId : Option String}
    (hcorrelation : Wallet.bindCorrelation scope = .ok correlationId) :
    Ensures (Wallet.handle scope (r.event part).eventType (r.event part).payload) db
      (fun _ _ => True) fun _ => False := by
  obtain ⟨hwallet, howner⟩ := hpaid
  have hfound : ∀ wallet, db.wallets.rows.find? (·.address = r.confirmed.toAddress.val) =
      some wallet → wallet = w := by
    intro wallet hother
    rw [hwallet] at hother
    exact (Option.some.inj hother).symm
  cases part with
  | credit =>
      have hcredit : Ensures (Wallet.creditDeposit scope r.confirmPayload) db
          (fun _ _ => True) fun _ => False := by
        apply creditDeposit_succeeds ?_ r.confirmFits hcorrelation
        intro wallet hother
        rw [hfound wallet hother]
        exact howner
      exact hcredit
  | reversal =>
      have hreverse : Ensures (Wallet.reverseDeposit scope (Blockchain.reorgedPayload
          r.reorgPayload (r.reorged.status = .confirmed) r.reorged.blockHash)) db
          (fun _ _ => True) fun _ => False := by
        apply reverseDeposit_succeeds ?_ ?_ r.reorgFits hcorrelation
        · intro wallet hother
          rw [r.sameLog.toAddress] at hother
          rw [hfound wallet hother]
          exact howner
        · intro wallet hother
          rw [r.sameLog.toAddress] at hother
          rw [hfound wallet hother, r.sameLog.asset, r.sameLog.amount]
          exact hcovered
      exact hreverse

/-- The events are named and of a type which is stored, and so is their correlation id. -/
theorem event_storable (r : ReversedDeposit) (part : Part) (scope : Scope) :
    (∃ name, (r.event part).eventId = .uuid5 name) ∧
      (∃ stored, varchar 64 (r.event part).eventType.name = .ok stored) ∧
      ∃ correlationId, Wallet.bindCorrelation
        (Wallet.deliveryScope scope (r.event part)) = .ok correlationId := by
  have hbind : ∀ d : Deposit, (r.event part).correlationId =
      Blockchain.depositCorrelation d.txHash → ∃ correlationId, Wallet.bindCorrelation
        (Wallet.deliveryScope scope (r.event part)) = .ok correlationId := by
    intro d hcorrelationId
    obtain ⟨hcorrelation, stored, hstored⟩ := depositCorrelation_fits d.txHash
    refine ⟨some stored.val, ?_⟩
    simp only [Wallet.bindCorrelation, Wallet.deliveryScope, hcorrelationId,
      if_neg hcorrelation, hstored, Except.map]
  have htype : ∀ eventType : EventType, eventType.name.length ≤ 64 →
      '\x00' ∉ eventType.name.toList → ∃ stored, varchar 64 eventType.name = .ok stored :=
    fun _ hlength hnul => ⟨_, varchar_ok hlength hnul⟩
  rw [event_eventId]
  cases part with
  | credit =>
      refine ⟨⟨_, rfl⟩, htype .depositConfirmed (by decide) (by decide),
        hbind r.confirmed ?_⟩
      exact confirmedEvent_correlationId r.confirmScope r.confirmed r.confirmPayload
  | reversal =>
      refine ⟨⟨_, rfl⟩, htype .depositReorged (by decide) (by decide), hbind r.reorged ?_⟩
      have hfilter : (some (Blockchain.depositCorrelation r.reorged.txHash)).filter
          (· ≠ "") = some (Blockchain.depositCorrelation r.reorged.txHash) := by
        simp [Option.filter, (depositCorrelation_fits r.reorged.txHash).1]
      simp only [event, reorgedEvent, Blockchain.depositEvent, newEvent, hfilter]

/-- A dispatch of an event which is not recorded returns when the balance covers it. -/
theorem dispatch_succeeds (hfresh : ¬db.Recorded (r.event part).eventId)
    (hpaid : r.PaidTo w db) (hcovered : 0 ≤ db.availableOf (r.account w) + r.units part)
    (scope : Scope) :
    ∃ outcome db', commit (Wallet.dispatch scope (r.event part)) db = (.ok outcome, db') := by
  obtain ⟨⟨name, hname⟩, htype, correlationId, hcorrelation⟩ := r.event_storable part scope
  have hdispatch : Ensures (Wallet.dispatch scope (r.event part)) db (fun _ _ => True)
      fun _ => False := by
    unfold Wallet.dispatch
    apply Ensures.bind (claimEvent_succeeds hname htype hfresh)
    rintro _ db' ⟨rfl, processedEvents, rfl⟩
    have hpaid' : r.PaidTo w { db with processedEvents } := hpaid
    exact handle_succeeds hpaid' hcovered hcorrelation
  obtain ⟨outcome, db', hcommit, _⟩ := hdispatch.commit_returns
  exact ⟨outcome, db', hcommit⟩

/-! ## The books of the account -/

/-- The account holds what it held, and what the recorded events posted. -/
structure Booked (r : ReversedDeposit) (w : WalletRow) (earlier posted reserved : Int)
    (db : Wallet.Db) : Prop where
  paid : r.PaidTo w db
  fresh : ∀ part, ∀ e ∈ r.entries db, e.entryType = part.entryType →
    e.referenceId = r.reference part → db.Recorded (r.event part).eventId
  entries : r.entrySum db = earlier + r.told db
  posted : db.postedOf (r.account w) = posted + r.told db
  reserved : db.reservedOf (r.account w) = reserved

variable {earlier posted reserved : Int}

theorem told_of_untouched (h : r.Untouched db) : r.told db = 0 := by
  unfold told
  rw [if_neg (h .credit).1, if_neg (h .reversal).1, add_zero]

theorem Booked.of_untouched (h : r.Untouched db) (hpaid : r.PaidTo w db) :
    r.Booked w (r.entrySum db) (db.postedOf (r.account w)) (db.reservedOf (r.account w))
      db where
  paid := hpaid
  fresh := fun part e he htype hreference => absurd hreference ((h part).2 e he htype)
  entries := by rw [told_of_untouched h, add_zero]
  posted := by rw [told_of_untouched h, add_zero]
  reserved := rfl

theorem told_posted (hnew : ¬db.Recorded (r.event part).eventId)
    (hrecorded : ∀ event, db'.Recorded event ↔
      db.Recorded event ∨ event = (r.event part).eventId) :
    r.told db' = r.told db + r.units part := by
  have hne := r.eventId_ne
  unfold told
  cases part with
  | credit =>
      have hother : (r.event .reversal).eventId ≠ (r.event .credit).eventId := hne.symm
      simp only [hrecorded, hnew, hother, or_true, or_false, if_true, if_false]
      ring
  | reversal =>
      simp only [hrecorded, hnew, hne, or_true, or_false, if_true, if_false]
      ring

theorem refers_reference (r : ReversedDeposit) (part : Part) :
    r.confirmed.identity.refers (r.reference part) = true :=
  (DepositId.refers_inBlock_iff _ _ _).mpr rfl

theorem mem_entries {e : LedgerEntry} (he : e ∈ db.depositEntries)
    (hreference : e.referenceId = r.reference part) : e ∈ r.entries db := by
  unfold entries
  rw [List.mem_filter, hreference]
  exact ⟨he, r.refers_reference part⟩

theorem entries_written {e : LedgerEntry} (hreference : e.referenceId = r.reference part)
    (hwritten : db'.depositEntries = db.depositEntries ++ [e]) :
    r.entries db' = r.entries db ++ [e] := by
  unfold entries
  rw [hwritten, List.filter_append, List.filter_singleton, hreference,
    r.refers_reference part]
  rfl

/-- Handling an event for the first time. -/
theorem Booked.posts (h : r.Booked w earlier posted reserved db) {row : ProcessedEvent}
    {processedEvents : ProcessedEvents} (hconsumer : row.consumer = Wallet.consumerName)
    (hevent : row.eventId = (r.event part).eventId)
    (hinsert : db.processedEvents.insert? row = some processedEvents)
    (hposts : PostsFor r.confirmed part.entryType (r.units part) (r.row part).blockHash
      { db with processedEvents } db') :
    r.Booked w earlier posted reserved db' := by
  obtain ⟨hwallet, howner⟩ := h.paid
  have hnew : ¬db.Recorded (r.event part).eventId := by
    have hfree := Table.insert?_free hinsert
    simpa [Wallet.Db.Recorded, ProcessedEvent.primaryKey, hconsumer, hevent] using hfree
  have hfresh : ∀ old ∈ ({ db with processedEvents } : Wallet.Db).depositEntries,
      old.entryType = part.entryType → old.referenceId ≠ r.reference part := by
    intro old hold htype hreference
    exact hnew (h.fresh part old (mem_entries hold hreference) htype hreference)
  rcases hposts.written hfresh with ⟨hnone, _⟩ | ⟨w', e, hw', hentry, hmoved, hwritten⟩
  · rw [hwallet] at hnone
    cases hnone
  rw [hwallet, Option.some.injEq] at hw'
  subst hw'
  have hprocessed : db'.processedEvents = processedEvents := hmoved.frame.processedEvents
  have hrecorded : ∀ event, db'.Recorded event ↔
      db.Recorded event ∨ event = (r.event part).eventId := by
    intro event
    rw [← hevent]
    exact recorded_insert_iff (hprocessed ▸ hinsert) hconsumer event
  have hentries : r.entries db' = r.entries db ++ [e] :=
    entries_written hentry.referenceId hwritten
  have htold := told_posted hnew hrecorded
  have haccount : e.account = r.account w := by
    rw [LedgerEntry.account, hentry.userId, hentry.asset]
    rfl
  constructor
  · refine ⟨?_, ?_⟩
    · rw [hmoved.frame.wallets]
      exact hwallet
    · rw [hmoved.frame.users]
      exact howner
  · intro part' other hother htype hreference'
    rw [hentries] at hother
    rw [hrecorded]
    rcases List.mem_append.mp hother with hold | hlast
    · exact Or.inl (h.fresh part' other hold htype hreference')
    · rw [List.mem_singleton.mp hlast, hentry.entryType] at htype
      have hpart : part = part' := by
        cases part <;> cases part' <;> first | rfl | cases htype
      rw [hpart]
      exact Or.inr rfl
  · have hbefore := h.entries
    unfold entrySum at hbefore ⊢
    rw [hentries, List.map_append, List.sum_append, hbefore, htold]
    simp only [List.map_cons, List.map_nil, List.sum_singleton, hentry.amount]
    ring
  · have hbefore : ({ db with processedEvents } : Wallet.Db).postedOf (r.account w) =
        posted + r.told db := h.posted
    rw [hmoved.posted, hbefore, htold]
    simp only [Wallet.entriesSum_cons, Wallet.entriesSum_nil, haccount, if_true, hentry.amount]
    ring
  · have hbefore : ({ db with processedEvents } : Wallet.Db).reservedOf (r.account w) =
        reserved := h.reserved
    rw [hmoved.reserved, hbefore, Pi.zero_apply, add_zero]

theorem Booked.dispatch (h : r.Booked w earlier posted reserved db) (part : Part) (scope : Scope) :
    Ensures (Wallet.dispatch scope (r.event part)) db
      (fun _ db' => r.Booked w earlier posted reserved db') fun _ => True := by
  unfold Wallet.dispatch
  apply Ensures.bind ((Wallet.claimEvent_ensures db (r.event part)).mono (fun _ _ h => h)
    (fun _ _ => trivial))
  rintro claimed db₁ (⟨rfl, rfl, _⟩ | ⟨rfl, processedEvents, hinsert, rfl⟩)
  · exact Ensures.pure h
  · apply (handle_posts r part _ _).mono ?_ (fun _ h => h)
    intro _ db' hposts
    exact h.posts rfl rfl hinsert hposts

/-! ## Runs -/

section

variable (r : ReversedDeposit) (w : WalletRow) (settings : DeliverySettings)

/-- A change which leaves the account, its wallet and the entries of the deposit alone. -/
structure Still (db db' : Wallet.Db) : Prop where
  paid : r.PaidTo w db → r.PaidTo w db'
  recorded : ∀ part, db'.Recorded (r.event part).eventId ↔ db.Recorded (r.event part).eventId
  entries : r.entries db' = r.entries db
  posted : db'.postedOf (r.account w) = db.postedOf (r.account w)
  reserved : db'.reservedOf (r.account w) = db.reservedOf (r.account w)

/-- The account moves with the two events only, and their ids name no other event. -/
def Solitary (s : DeliverySystem Wallet.SoundDb) : DeliveryAction Wallet.service → Prop
  | .other tx => r.Still w s.shared.db.val (tx.val s.shared.db).val
  | .advance id _ turn => ∀ command ∈ s.command? id,
    match command with
    | .dispatch delivered =>
      (∃ part, delivered.envelope = r.event part) ∨
        (∀ part, delivered.envelope.eventId ≠ (r.event part).eventId) ∧
        r.Still w s.shared.db.val
          (Wallet.service.dispatch turn.scope delivered.envelope s.shared.db).2.val
    | _ => True
  | _ => True

/-- The last permitted dispatch of an event, and every one after it, finds the event
recorded or is carried out while the available balance covers it; an event is not
delivered again after that before it is recorded. -/
def Covered (s : DeliverySystem Wallet.SoundDb) : DeliveryAction Wallet.service → Prop
  | .advance id fate turn => ∀ command ∈ s.command? id,
    match command with
    | .dispatch delivered => settings.consumer.maxDelivery ≤ delivered.deliveryCount →
      ∀ part, delivered.envelope.eventId = (r.event part).eventId →
        s.shared.db.val.Recorded (r.event part).eventId ∨
          (∀ e, fate ≠ .refused e) ∧ turn.raises = none ∧
            0 ≤ s.shared.db.val.availableOf (r.account w) + r.units part
    | .xaddDeadLetter item => item.error = none →
      ∀ part, item.delivered.envelope.eventId = (r.event part).eventId →
        s.shared.db.val.Recorded (r.event part).eventId
    | _ => True
  | _ => True

/-- The message was delivered and acknowledged. -/
def Acknowledged (part : Part) (w : Pipeline Wallet.SoundDb) : Prop :=
  r.event part ∈ w.outbox.envelopes ∧ ¬w.Unpublished (r.event part) ∧
    ¬w.InStream (r.event part)

structure Inv (earlier posted reserved : Int) (s : DeliverySystem Wallet.SoundDb) : Prop where
  delivery : DeliverySystem.Inv Wallet.service settings s
  handled : DeliverySystem.NoneGivenUp Wallet.service settings
    (fun id => ∃ part, id = (r.event part).eventId) s
  booked : r.Booked w earlier posted reserved s.shared.db.val

end

variable {settings : DeliverySettings} {s : DeliverySystem Wallet.SoundDb}
  {action : DeliveryAction Wallet.service}

theorem Booked.still (h : r.Booked w earlier posted reserved db) (hstill : r.Still w db db') :
    r.Booked w earlier posted reserved db' := by
  have htold : r.told db' = r.told db := by
    unfold told
    simp only [hstill.recorded]
  constructor
  · exact hstill.paid h.paid
  · intro part e he htype hreference
    rw [hstill.entries] at he
    exact (hstill.recorded part).mpr (h.fresh part e he htype hreference)
  · rw [entrySum, hstill.entries, htold]
    exact h.entries
  · rw [hstill.posted, htold]
    exact h.posted
  · rw [hstill.reserved]
    exact h.reserved

/-- The commits of the run keep the books. -/
theorem Booked.step (h : r.Booked w earlier posted reserved s.shared.db.val)
    (hsolitary : r.Solitary w s action) :
    r.Booked w earlier posted reserved
      (DeliverySystem.step Wallet.service settings action s).shared.db.val := by
  rcases DeliverySystem.step_db settings action s with hsame | ⟨tx, rfl, hother⟩ |
    ⟨id, fate, turn, delivered, rfl, hcommand, hdispatched⟩
  · rw [hsame]
    exact h
  · rw [hother]
    exact h.still hsolitary
  · rw [hdispatched]
    rcases hsolitary _ hcommand with ⟨part, hevent⟩ | ⟨_, hstill⟩
    · rw [hevent]
      exact commit_preserves (I := fun db : Wallet.Db => r.Booked w earlier posted reserved db) h
        (h.dispatch part turn.scope)
    · exact h.still hstill

/-- A covered dispatch commits. -/
theorem inTime_of_covered (hbooked : r.Booked w earlier posted reserved s.shared.db.val)
    (hsolitary : r.Solitary w s action) (hcovered : r.Covered w settings s action) :
    DeliverySystem.InTime Wallet.service settings
      (fun id => ∃ part, id = (r.event part).eventId) s action := by
  cases action with
  | advance id fate turn =>
      intro command hcommand
      cases command with
      | dispatch delivered =>
          rintro ⟨part, hid⟩ hlast
          by_cases hrecorded : s.shared.db.val.Recorded (r.event part).eventId
          · left
            rw [hid]
            exact decide_eq_true hrecorded
          · right
            have hevent : delivered.envelope = r.event part := by
              rcases hsolitary _ hcommand with ⟨part', hevent⟩ | ⟨hother, _⟩
              · rw [hevent] at hid
                rw [hevent, eventId_inj hid]
              · exact absurd hid (hother part)
            obtain ⟨hfate, hraises, hunits⟩ :=
              (hcovered _ hcommand hlast part hid).resolve_left hrecorded
            obtain ⟨outcome, db', hcommit⟩ :=
              dispatch_succeeds hrecorded hbooked.paid hunits turn.scope
            refine ⟨hfate, ?_⟩
            rintro (hown | hdispatch)
            · rw [hraises] at hown
              cases hown
            · have hok : (Wallet.service.dispatch turn.scope delivered.envelope
                  s.shared.db).1 = .ok () := by
                rw [hevent]
                simp only [Wallet.service, commitUnit, hcommit]
                rfl
              rw [hok] at hdispatch
              cases hdispatch
      | xaddDeadLetter item =>
          rintro ⟨part, hid⟩ herror
          rw [hid]
          exact decide_eq_true (hcovered _ hcommand herror part hid)
      | _ => trivial
  | _ => trivial

theorem Inv.step (h : r.Inv w settings earlier posted reserved s)
    (hspared : DeliverySystem.Spared Wallet.service s action)
    (hsolitary : r.Solitary w s action) (hcovered : r.Covered w settings s action) :
    r.Inv w settings earlier posted reserved
      (DeliverySystem.step Wallet.service settings action s) where
  delivery := h.delivery.step action hspared
  handled := h.handled.step action (inTime_of_covered h.booked hsolitary hcovered)
  booked := h.booked.step hsolitary

/-- In every run in which nothing else moves the account, no unsettled event is evicted
and the last permitted dispatch of either event is covered, the two events add up to
nothing once both messages are acknowledged. -/
theorem covered_reversals_net_to_zero {r : ReversedDeposit} {w : WalletRow}
    {settings : DeliverySettings} {db : Wallet.SoundDb}
    {actions : List (DeliveryAction Wallet.service)}
    (hpaid : r.PaidTo w db.val) (huntouched : r.Untouched db.val)
    (hrun : AdmittedRun (DeliverySystem.step Wallet.service settings)
      (fun s action => DeliverySystem.Spared Wallet.service s action ∧
        r.Solitary w s action ∧ r.Covered w settings s action)
      (DeliverySystem.init db) actions) :
    let reached := (runSteps (DeliverySystem.step Wallet.service settings)
      (DeliverySystem.init db) actions).shared
    (∀ part, r.Acknowledged part reached) →
      r.entrySum reached.db.val = r.entrySum db.val ∧
        reached.db.val.postedOf (r.account w) = db.val.postedOf (r.account w) := by
  have hinv := AdmittedRun.invariant
    (I := r.Inv w settings (r.entrySum db.val) (db.val.postedOf (r.account w))
      (db.val.reservedOf (r.account w)))
    (fun _ _ h hadmitted => h.step hadmitted.1 hadmitted.2.1 hadmitted.2.2)
    ⟨.init db, .init db, .of_untouched huntouched hpaid⟩ hrun
  intro reached hacknowledged
  have hrecorded : ∀ part, reached.db.val.Recorded (r.event part).eventId := by
    intro part
    obtain ⟨hmem, hpublished, hread⟩ := hacknowledged part
    rcases hinv.handled.handled hinv.delivery hmem ⟨part, rfl⟩ with
      hopen | hstream | hrecorded
    · exact absurd hopen hpublished
    · exact absurd hstream hread
    · exact of_decide_eq_true hrecorded
  have htold : r.told reached.db.val = 0 := by
    unfold told
    rw [if_pos (hrecorded .credit), if_pos (hrecorded .reversal)]
    exact add_neg_cancel _
  have hentries := hinv.booked.entries
  have hposted := hinv.booked.posted
  rw [htold, add_zero] at hentries hposted
  exact ⟨hentries, hposted⟩

/-! ### One deposit in either order -/

/-- A deposit of 500 units to the registered address, which is orphaned from this block. -/
def reversalFrom (blockHash : ChainHash) : Option ReversedDeposit :=
  match proposedDeposit (someUuid 9) (spelledLog Blockchain.custodyAddress.address.val) with
  | .error _ => none
  | .ok row =>
    let orphaned := { row with status := .confirmed, blockHash }
    match hconfirmed : depositPayload row 3, hreorged : depositPayload orphaned 3 with
    | .ok confirmPayload, .ok reorgPayload => some {
        confirmed := row
        reorged := orphaned
        confirmScope := Wallet.spentScope
        reorgScope := Wallet.spentScope
        confirmations := (3, 3)
        confirmPayload
        reorgPayload
        sameLog := ⟨rfl, rfl, rfl, rfl, rfl⟩
        wasConfirmed := rfl
        confirmFits := hconfirmed
        reorgFits := hreorged }
    | _, _ => none

/-- A run of the relay, with these fates of its commands. -/
def relayWith (now : Nat) (fates : List (Fate BusError)) :
    List (DeliveryAction Wallet.service) :=
  .start (.relay 0) ::
    (fates.map fun fate =>
      .advance (.relay 0) fate ⟨1, 0, { Wallet.spentScope with now }, none⟩) ++
    [.stop (.relay 0)]

def polls (count : Nat) : List (DeliveryAction Wallet.service) :=
  (List.replicate count (Observed.pollWith none (List.replicate 14 .through))).flatten

/-- The publication of the confirmation fails, and is tried again when the reversal has
been given up. -/
def overtaken (r : ReversedDeposit) : List (DeliveryAction Wallet.service) :=
  [.enqueue (r.event .credit), .enqueue (r.event .reversal)] ++
    relayWith 1000 [.through, .refused (.connection ""), .through, .through] ++ polls 6 ++
    relayWith 2000 [.through, .through, .through] ++ polls 1

/-- Both are published in order. -/
def inTurn (r : ReversedDeposit) : List (DeliveryAction Wallet.service) :=
  [.enqueue (r.event .credit), .enqueue (r.event .reversal)] ++
    relayWith 1000 [.through, .through, .through, .through] ++ polls 1

instance {P : Part → Prop} [DecidablePred P] : Decidable (∀ part, P part) :=
  decidable_of_iff (P .credit ∧ P .reversal) ⟨fun h part => by
    cases part with
    | credit => exact h.1
    | reversal => exact h.2, fun h => ⟨h .credit, h .reversal⟩⟩

instance (r : ReversedDeposit) (db : Wallet.Db) : Decidable (r.Untouched db) :=
  inferInstanceAs (Decidable (∀ part, ¬db.Recorded (r.event part).eventId ∧
    ∀ e ∈ r.entries db, e.entryType = part.entryType → e.referenceId ≠ r.reference part))

instance (r : ReversedDeposit) (part : Part) (w : Pipeline Wallet.SoundDb) :
    Decidable (r.Acknowledged part w) :=
  inferInstanceAs (Decidable (_ ∧ ¬_ ∧ ¬_))

/-- No other transaction commits, and the processes issue commands of this kind only. -/
def Issues (P : PipelineCommand → Prop) (s : DeliverySystem Wallet.SoundDb) :
    DeliveryAction Wallet.service → Prop
  | .other _ => False
  | .advance id _ _ => ∀ command ∈ s.command? id, P command
  | _ => True

instance {P : PipelineCommand → Prop} [DecidablePred P] (s : DeliverySystem Wallet.SoundDb)
    (action : DeliveryAction Wallet.service) : Decidable (Issues P s action) :=
  match action with
  | .enqueue _ | .start _ | .stop _ => .isTrue trivial
  | .other _ => .isFalse fun h => h
  | .advance _ _ _ => inferInstanceAs (Decidable (∀ command ∈ _, P command))

/-- Only the two events are dispatched. -/
def Own (r : ReversedDeposit) : PipelineCommand → Prop
  | .dispatch delivered =>
    delivered.envelope = r.event .credit ∨ delivered.envelope = r.event .reversal
  | _ => True

/-- No delivery is the last permitted one. -/
def Early (limit : Nat) : PipelineCommand → Prop
  | .dispatch delivered => delivered.deliveryCount < limit
  | .xaddDeadLetter _ => False
  | _ => True

instance (r : ReversedDeposit) : DecidablePred r.Own
  | .dispatch _ => inferInstanceAs (Decidable (_ ∨ _))
  | .claimRows .. | .publish .. | .markRows .. | .xpendingRange .. | .xclaim ..
  | .xreadgroup .. | .xack .. | .xaddDeadLetter _ | .recordDeadLetter _ => .isTrue trivial

instance (limit : Nat) : DecidablePred (Early limit)
  | .dispatch delivered => inferInstanceAs (Decidable (delivered.deliveryCount < limit))
  | .xaddDeadLetter _ => .isFalse fun h => h
  | .claimRows .. | .publish .. | .markRows .. | .xpendingRange .. | .xclaim ..
  | .xreadgroup .. | .xack .. | .recordDeadLetter _ => .isTrue trivial

theorem Issues.solitary (h : Issues r.Own s action) : r.Solitary w s action := by
  cases action with
  | other tx => exact h.elim
  | advance id fate turn =>
      intro command hcommand
      have hown := h command hcommand
      cases command with
      | dispatch delivered =>
          rcases hown with hcredit | hreversal
          · exact Or.inl ⟨.credit, hcredit⟩
          · exact Or.inl ⟨.reversal, hreversal⟩
      | _ => trivial
  | _ => trivial

theorem Issues.covered (h : Issues (Early settings.consumer.maxDelivery) s action) :
    r.Covered w settings s action := by
  cases action with
  | other tx => exact h.elim
  | advance id fate turn =>
      intro command hcommand
      have hearly := h command hcommand
      cases command with
      | dispatch delivered =>
          intro hlast
          exact absurd hlast (Nat.not_le_of_lt hearly)
      | xaddDeadLetter item => exact hearly.elim
      | _ => trivial
  | _ => trivial

/-- With the default settings, from the wallet of `creditedDb`. -/
def reachedBy (actions : List (DeliveryAction Wallet.service)) : Pipeline Wallet.SoundDb :=
  (runSteps (DeliverySystem.step Wallet.service .standard)
    (DeliverySystem.init Observed.creditedDb) actions).shared

theorem reversal_runs :
    (∃ r ∈ reversalFrom SettlementWorld.paymentBlock, ∃ w ∈ registeredDb.wallets.rows,
      (registeredDb.wallets.rows.find? (·.address = r.confirmed.toAddress.val) = some w ∧
        (registeredDb.users.find? w.userId).isSome = true) ∧
      r.Untouched registeredDb ∧
      AdmittedRun (DeliverySystem.step Wallet.service .standard)
        (fun s action => DeliverySystem.Spared Wallet.service s action ∧ Issues r.Own s action)
        (DeliverySystem.init Observed.creditedDb) (overtaken r) ∧
      (∀ part, r.Acknowledged part (reachedBy (overtaken r))) ∧
      (r.entrySum registeredDb = 0 ∧ r.entrySum (reachedBy (overtaken r)).db.val = 500) ∧
      registeredDb.postedOf (r.account w) = 0 ∧
      (reachedBy (overtaken r)).db.val.postedOf (r.account w) = 500) ∧
    ∃ r ∈ reversalFrom SettlementWorld.rebuiltBlock, ∃ w ∈ registeredDb.wallets.rows,
      (registeredDb.wallets.rows.find? (·.address = r.confirmed.toAddress.val) = some w ∧
        (registeredDb.users.find? w.userId).isSome = true) ∧
      r.Untouched registeredDb ∧
      AdmittedRun (DeliverySystem.step Wallet.service .standard)
        (fun s action => DeliverySystem.Spared Wallet.service s action ∧
          Issues r.Own s action ∧
          Issues (Early DeliverySettings.standard.consumer.maxDelivery) s action)
        (DeliverySystem.init Observed.creditedDb) (inTurn r) ∧
      (∀ part, r.Acknowledged part (reachedBy (inTurn r))) ∧
      r.entrySum registeredDb = 0 ∧ r.reference .credit ≠ r.reference .reversal ∧
      (reachedBy (inTurn r)).db.val.ledger.rows.length = 2 := by
  decide +kernel

/-- The reversal was given up before the deposit was credited; both are acknowledged, no
other event moves the account, and the deposit stays. -/
theorem overtaken_deposit_is_kept :
    ∃ r w, r.PaidTo w Observed.creditedDb.val ∧ r.Untouched Observed.creditedDb.val ∧
      AdmittedRun (DeliverySystem.step Wallet.service .standard)
        (fun s action => DeliverySystem.Spared Wallet.service s action ∧
          r.Solitary w s action) (DeliverySystem.init Observed.creditedDb) (overtaken r) ∧
      (∀ part, r.Acknowledged part (reachedBy (overtaken r))) ∧
      (r.entrySum Observed.creditedDb.val = 0 ∧
        r.entrySum (reachedBy (overtaken r)).db.val = 500) ∧
      Observed.creditedDb.val.postedOf (r.account w) = 0 ∧
      (reachedBy (overtaken r)).db.val.postedOf (r.account w) = 500 := by
  obtain ⟨⟨r, _, w, _, ⟨hwallet, howner⟩, huntouched, hrun, hacknowledged, hsums⟩, _⟩ :=
    reversal_runs
  refine ⟨r, w, ⟨hwallet, Option.isSome_iff_exists.mp howner⟩, huntouched, ?_,
    hacknowledged, hsums⟩
  exact hrun.mono fun _ _ h => ⟨h.1, h.2.solitary⟩

/-- Delivered in turn, the deposit, which has moved between, is posted twice and adds up to
nothing. -/
theorem deposit_reversed_in_turn :
    ∃ r w, r.reference .credit ≠ r.reference .reversal ∧
      (reachedBy (inTurn r)).db.val.ledger.rows.length = 2 ∧
      r.entrySum (reachedBy (inTurn r)).db.val = 0 ∧
      (reachedBy (inTurn r)).db.val.postedOf (r.account w) =
        Observed.creditedDb.val.postedOf (r.account w) := by
  obtain ⟨_, r, _, w, _, ⟨hwallet, howner⟩, huntouched, hrun, hacknowledged, hnone, hmoved,
    hrows⟩ := reversal_runs
  have hadmitted : AdmittedRun (DeliverySystem.step Wallet.service .standard)
      (fun s action => DeliverySystem.Spared Wallet.service s action ∧
        r.Solitary w s action ∧ r.Covered w .standard s action)
      (DeliverySystem.init Observed.creditedDb) (inTurn r) :=
    hrun.mono fun _ _ h => ⟨h.1, h.2.1.solitary, h.2.2.covered⟩
  have hsettled := covered_reversals_net_to_zero ⟨hwallet, Option.isSome_iff_exists.mp howner⟩
    huntouched hadmitted hacknowledged
  exact ⟨r, w, hmoved, hrows, hsettled.1.trans hnone, hsettled.2⟩

end ReversedDeposit

end CryptoWallet
