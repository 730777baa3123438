import CryptoWallet.DepositNews
import CryptoWallet.DepositSpelling

/-!
# The ledger and the rows of the deposits

The blockchain service tells of its deposits through the outbox, and the wallet
handles each event once, late, and in any order.  What the ledger holds for a
deposit is what the handled events add up to; once all are handled, it is what
the row says, unless an event was lost to an event id which was taken.
-/

namespace CryptoWallet

open Tx
open Blockchain (Deposit DepositNews ServiceTask Told Tells confirmedEventId postedUnits
  reorgedEventId standing)
open Wallet (EntryType LedgerEntry postsDeposit)

variable {σ : Type}

/-! ## The entries of a deposit -/

/-- The entries which refer to the deposit, in whatever block. -/
def Wallet.Db.depositSum (db : Wallet.Db) (id : DepositId) : Int :=
  ((db.depositEntries.filter fun e => id.refers e.referenceId).map LedgerEntry.amount).sum

def entryEventId (entryType : EntryType) (id : DepositId) (blockHash : ChainHash) : EventId :=
  if entryType = .reversal then reorgedEventId id blockHash else confirmedEventId id blockHash

/-- The event a deposit entry was written for. -/
def SourcedBy (event : EventId) (e : LedgerEntry) : Prop :=
  ∃ id blockHash, e.referenceId = DepositId.inBlock id blockHash ∧
    event = entryEventId e.entryType id blockHash

theorem SourcedBy.same {event event' : EventId} {e : LedgerEntry} (h : SourcedBy event e)
    (h' : SourcedBy event' e) : event = event' := by
  obtain ⟨id, blockHash, hreference, rfl⟩ := h
  obtain ⟨id', blockHash', hreference', rfl⟩ := h'
  obtain ⟨rfl, rfl⟩ := DepositId.inBlock_inj (hreference.symm.trans hreference')
  rfl

/-- Every deposit entry was written for an event which is recorded. -/
def Sourced (db : Wallet.Db) : Prop :=
  ∀ e ∈ db.depositEntries, ∃ event, SourcedBy event e ∧ db.Recorded event

section Posting

variable {db db' : Wallet.Db} {d : Deposit} {entryType : EntryType} {amount : Int}
  {blockHash : ChainHash} {id : DepositId}

theorem EntryFor.sourced {w : Wallet.WalletRow} {e : LedgerEntry}
    (h : EntryFor d w entryType amount blockHash e) :
    SourcedBy (entryEventId entryType d.identity blockHash) e :=
  ⟨d.identity, blockHash, h.referenceId, by rw [h.entryType]⟩

theorem depositSum_posted {e : LedgerEntry} {w : Wallet.WalletRow}
    (hentry : EntryFor d w entryType amount blockHash e)
    (hentries : db'.depositEntries = db.depositEntries ++ [e]) :
    db'.depositSum id = db.depositSum id + if id = d.identity then amount else 0 := by
  have hrefers : id.refers e.referenceId = decide (id = d.identity) := by
    rw [hentry.referenceId, Bool.eq_iff_iff, DepositId.refers_inBlock_iff, decide_eq_true_iff]
  unfold Wallet.Db.depositSum
  rw [hentries, List.filter_append, List.map_append, List.sum_append]
  by_cases hid : id = d.identity
  · rw [if_pos hid, List.filter_singleton, hrefers.trans (decide_eq_true hid)]
    simp [hentry.amount]
  · rw [if_neg hid, List.filter_singleton, hrefers.trans (decide_eq_false hid)]
    simp

/-- An entry which is not in the ledger is written. -/
theorem PostsFor.written (h : PostsFor d entryType amount blockHash db db')
    (hfresh : ∀ r ∈ db.depositEntries, r.entryType = entryType →
      r.referenceId ≠ DepositId.inBlock d.identity blockHash) :
    (db.wallets.rows.find? (·.address = d.toAddress.val) = none ∧ db' = db) ∨
      ∃ w e, db.wallets.rows.find? (·.address = d.toAddress.val) = some w ∧
        EntryFor d w entryType amount blockHash e ∧ Wallet.Moved db db' [e] 0 ∧
        db'.depositEntries = db.depositEntries ++ [e] := by
  rcases h with hnone | ⟨w, e, hwallet, hentry, hmoved⟩
  · exact Or.inl hnone
  · have hfree : e.key ∉ db.entryKeys := by
      intro hmem
      obtain ⟨r, hr, hkey⟩ := List.mem_map.mp hmem
      simp only [LedgerEntry.key, Prod.mk.injEq] at hkey
      obtain ⟨_, htype, hreferenceType, hreferenceId⟩ := hkey
      have hdeposit : r ∈ db.depositEntries := by
        simp [Wallet.Db.depositEntries, Table.select, hr, hreferenceType, hentry.referenceType]
      exact hfresh r hdeposit (htype.trans hentry.entryType)
        (hreferenceId.trans hentry.referenceId)
    have hwritten : Wallet.unabsorbed db.entryKeys [e] = [e] := by
      simp [Wallet.unabsorbed, hfree]
    rw [hwritten] at hmoved
    refine Or.inr ⟨w, e, hwallet, hentry, hmoved, ?_⟩
    rw [hmoved.depositEntries]
    simp [hentry.referenceType]

/-- What the event of an entry which is not in the ledger adds to it. -/
theorem PostsFor.posts (h : PostsFor d entryType amount blockHash db db')
    (hfresh : ∀ r ∈ db.depositEntries,
      ¬SourcedBy (entryEventId entryType d.identity blockHash) r)
    (hregistered : id = d.identity →
      db.wallets.rows.find? (·.address = d.toAddress.val) ≠ none) :
    db'.processedEvents = db.processedEvents ∧
      db'.depositSum id = db.depositSum id + (if id = d.identity then amount else 0) ∧
      ∀ r ∈ db'.depositEntries, r ∈ db.depositEntries ∨
        SourcedBy (entryEventId entryType d.identity blockHash) r := by
  have hunwritten : ∀ r ∈ db.depositEntries, r.entryType = entryType →
      r.referenceId ≠ DepositId.inBlock d.identity blockHash := by
    intro r hr htype hreference
    exact hfresh r hr ⟨d.identity, blockHash, hreference, by rw [htype]⟩
  rcases h.written hunwritten with ⟨hnone, rfl⟩ | ⟨w, e, _, hentry, hmoved, hentries⟩
  · have hid : id ≠ d.identity := fun hid => hregistered hid hnone
    refine ⟨rfl, by simp [hid], fun r hr => Or.inl hr⟩
  · refine ⟨hmoved.frame.processedEvents, depositSum_posted hentry hentries, ?_⟩
    intro r hr
    rw [hentries] at hr
    rcases List.mem_append.mp hr with hold | hnew
    · exact Or.inl hold
    · rw [List.mem_singleton.mp hnew]
      exact Or.inr hentry.sourced

end Posting

/-! ## One delivery -/

section Delivery

variable {db db' : Wallet.Db} {envelope : Envelope} {id : DepositId}

/-- What handling an event does to the deposits. -/
structure Handles (id : DepositId) (envelope : Envelope) (db db' : Wallet.Db) : Prop where
  processedEvents : db'.processedEvents = db.processedEvents
  depositSum : db'.depositSum id = db.depositSum id + postedUnits id envelope
  entries : ∀ r ∈ db'.depositEntries,
    r ∈ db.depositEntries ∨ SourcedBy envelope.eventId r

theorem Handles.of_undisturbed (h : Wallet.Undisturbed db db')
    (hunits : postedUnits id envelope = 0) : Handles id envelope db db' := by
  refine ⟨h.processedEvents, ?_, ?_⟩
  · rw [hunits, add_zero, Wallet.Db.depositSum, h.deposits]
    rfl
  · intro r hr
    rw [h.deposits] at hr
    exact Or.inl hr

theorem Handles.of_posts {d : Deposit} {entryType : EntryType} {amount : Int}
    {blockHash : ChainHash} (h : PostsFor d entryType amount blockHash db db')
    (hcarries : Carries envelope.payload d)
    (hevent : envelope.eventId = entryEventId entryType d.identity blockHash)
    (hunits : postedUnits id envelope = if id = d.identity then amount else 0)
    (hamount : amount ≠ 0)
    (hfresh : ∀ r ∈ db.depositEntries, ¬SourcedBy envelope.eventId r)
    (hregistered : postedUnits id envelope ≠ 0 → db.walletAt envelope.payload ≠ none) :
    Handles id envelope db db' := by
  rw [hevent] at hfresh
  have hwallet : id = d.identity →
      db.wallets.rows.find? (·.address = d.toAddress.val) ≠ none := by
    intro hid
    rw [← walletAt_carried hcarries]
    apply hregistered
    rwa [hunits, if_pos hid]
  obtain ⟨hprocessed, hsum, hentries⟩ := h.posts hfresh hwallet
  refine ⟨hprocessed, by rw [hsum, hunits], ?_⟩
  rw [hevent]
  exact hentries

theorem handle_handles (hsound : Wallet.Sound db) (scope : Scope)
    (hnews : postsDeposit envelope.eventType = true → DepositNews envelope)
    (hfresh : ∀ r ∈ db.depositEntries, ¬SourcedBy envelope.eventId r)
    (hregistered : postedUnits id envelope ≠ 0 → db.walletAt envelope.payload ≠ none) :
    Ensures (Wallet.handle scope envelope.eventType envelope.payload) db
      (fun _ db' => Handles id envelope db db') fun _ => True := by
  cases htype : postsDeposit envelope.eventType with
  | false =>
      apply (Wallet.handle_undisturbed hsound scope htype envelope.payload).mono
      · intro _ db' hsame
        exact .of_undisturbed hsame (Blockchain.postedUnits_of_beside id htype)
      · exact fun _ h => h
  | true =>
      cases hnews htype with
      | confirmed confirmScope d confirmations payload hpayload =>
          obtain ⟨hcarries, hreference⟩ := depositPayload_carries hpayload
          have hunits := Blockchain.postedUnits_confirmed id confirmScope hpayload
          have hamount : (d.amount : Int) ≠ 0 := by
            have hpositive := d.amountPositive
            omega
          apply (creditDeposit_posts hcarries hreference).mono
          · intro _ db' hposts
            exact .of_posts hposts hcarries
              (Blockchain.confirmedEvent_eventId confirmScope d payload) hunits hamount
              hfresh hregistered
          · exact fun _ h => h
      | reorged reorgScope d confirmations payload hpayload =>
          obtain ⟨hcarries, hconfirmed, hreference⟩ :=
            reorgedPayload_carries hpayload (d.status = .confirmed) d.blockHash
          have hunits := Blockchain.postedUnits_reorged id reorgScope hpayload
          have hamount : -(d.amount : Int) ≠ 0 := by
            have hpositive := d.amountPositive
            omega
          apply (reverseDeposit_posts hcarries hconfirmed hreference).mono
          · rintro _ db' (⟨hopen, rfl⟩ | ⟨hstatus, hposts⟩)
            · rw [decide_eq_false_iff_not] at hopen
              refine ⟨rfl, ?_, fun r hr => Or.inl hr⟩
              rw [hunits, if_neg fun h => hopen h.1, add_zero]
            · rw [decide_eq_true_iff] at hstatus
              simp only [hstatus, true_and] at hunits
              exact .of_posts hposts hcarries
                (Blockchain.reorgedEvent_eventId reorgScope d payload) hunits hamount
                hfresh hregistered
          · exact fun _ h => h

/-- The event is handled for the first time. -/
structure Settles (id : DepositId) (envelope : Envelope) (db db' : Wallet.Db) : Prop where
  fresh : ¬db.Recorded envelope.eventId
  recorded : ∀ event, db'.Recorded event ↔ db.Recorded event ∨ event = envelope.eventId
  depositSum : db'.depositSum id = db.depositSum id + postedUnits id envelope
  sourced : Sourced db'

theorem recorded_insert_iff {row : ProcessedEvent}
    (hinsert : db.processedEvents.insert? row = some db'.processedEvents)
    (hconsumer : row.consumer = Wallet.consumerName) (event : EventId) :
    db'.Recorded event ↔ db.Recorded event ∨ event = row.eventId := by
  have hfind := Table.find?_insert? hinsert (Wallet.consumerName, event)
  unfold Wallet.Db.Recorded
  rw [hfind]
  by_cases hsame : event = row.eventId
  · simp [ProcessedEvent.primaryKey, hconsumer, hsame]
  · simp [ProcessedEvent.primaryKey, hsame]

theorem dispatch_settles (hsound : Wallet.Sound db) (hsourced : Sourced db) (scope : Scope)
    (hnews : postsDeposit envelope.eventType = true → DepositNews envelope)
    (hregistered : postedUnits id envelope ≠ 0 → db.walletAt envelope.payload ≠ none) :
    Ensures (Wallet.dispatch scope envelope) db
      (fun _ db' => db' = db ∨ Settles id envelope db db') fun _ => True := by
  unfold Wallet.dispatch
  apply Ensures.bind ((Wallet.claimEvent_ensures db envelope).mono (fun _ _ h => h)
    (fun _ _ => trivial))
  rintro claimed db₁ (⟨rfl, rfl, _⟩ | ⟨rfl, processedEvents, hinsert, rfl⟩)
  · exact Ensures.pure (Or.inl rfl)
  · have hclaimed : Wallet.Sound { db with processedEvents } := hsound.congr rfl rfl rfl
    have hnew : ¬db.Recorded envelope.eventId := by
      have hfree := Table.insert?_free hinsert
      simpa [Wallet.Db.Recorded, ProcessedEvent.primaryKey] using hfree
    have hfresh : ∀ r ∈ db.depositEntries, ¬SourcedBy envelope.eventId r := by
      intro r hr hevent
      obtain ⟨event, hsource, hrecorded⟩ := hsourced r hr
      exact hnew (hevent.same hsource ▸ hrecorded)
    have hrecorded : ∀ {db' : Wallet.Db}, db'.processedEvents = processedEvents →
        ∀ event, db'.Recorded event ↔ db.Recorded event ∨ event = envelope.eventId := by
      rintro db' rfl event
      exact recorded_insert_iff hinsert rfl event
    apply (handle_handles hclaimed (Wallet.deliveryScope scope envelope) hnews
      hfresh hregistered).mono
    · intro _ db' hhandles
      have hrecorded' := hrecorded hhandles.processedEvents
      refine Or.inr ⟨hnew, hrecorded', hhandles.depositSum, ?_⟩
      intro r hr
      rcases hhandles.entries r hr with hold | hsource
      · obtain ⟨event, hsource, hold⟩ := hsourced r hold
        exact ⟨event, hsource, (hrecorded' event).mpr (Or.inl hold)⟩
      · exact ⟨envelope.eventId, hsource, (hrecorded' _).mpr (Or.inr rfl)⟩
    · exact fun _ h => h

end Delivery

/-! ## The two services -/

/-- The databases of the two services; the chain is what the calls of a task see. -/
structure SettlementWorld where
  service : Blockchain.Db
  wallet : Wallet.Db

/-- The wallet is handed events from the outbox of the other service only. -/
inductive SettlementAction (σ : Type) where
  | service (task : ServiceTask σ)
  | wallet (s : { s : Wallet.Step // s.delivers = false })
  | deliver (scope : Scope) (eventId : EventId)

namespace SettlementWorld

def start : SettlementWorld := ⟨.empty, .empty⟩

variable (adapter : ChainAdapter σ) (settings : Blockchain.Settings)
  (config : Wallet.Config)

def step (action : SettlementAction σ) (w : SettlementWorld) : SettlementWorld :=
  match action with
  | .service task => { w with service := task.run adapter settings w.service }
  | .wallet s => { w with wallet := Wallet.step config s.val w.wallet }
  | .deliver scope eventId =>
    match w.service.outbox.find? eventId with
    | none => w
    | some row =>
      { w with wallet := Wallet.step config (.dispatch scope row.envelope) w.wallet }

/-- No event about the deposit is lost to an event id which is taken, and the wallet of
its address is registered when the wallet service handles one. -/
def Admitted (id : DepositId) (w : SettlementWorld) : SettlementAction σ → Prop
  | .service task => task.Fresh adapter settings id w.service
  | .wallet _ => True
  | .deliver _ eventId =>
    ∀ row ∈ w.service.outbox.find? eventId, postedUnits id row.envelope ≠ 0 →
      w.wallet.walletAt row.envelope.payload ≠ none

/-- Every event which posts a deposit has been handled. -/
def Handled (w : SettlementWorld) : Prop :=
  ∀ envelope ∈ w.service.outbox.envelopes, postsDeposit envelope.eventType = true →
    w.wallet.Recorded envelope.eventId

instance (id : DepositId) (w : SettlementWorld) (action : SettlementAction σ) :
    Decidable (Admitted adapter settings id w action) :=
  match action with
  | .service task => inferInstanceAs (Decidable (task.Fresh adapter settings id w.service))
  | .wallet _ => .isTrue trivial
  | .deliver _ _ => inferInstanceAs (Decidable (∀ _ ∈ _, _ → _))

instance (w : SettlementWorld) : Decidable w.Handled :=
  inferInstanceAs (Decidable (∀ _ ∈ _, _ → _))

/-- What the wallet has made of an event so far. -/
def received (id : DepositId) (db : Wallet.Db) (envelope : Envelope) : Int :=
  if db.Recorded envelope.eventId then postedUnits id envelope else 0

structure Inv (id : DepositId) (w : SettlementWorld) : Prop where
  told : Told id w.service
  sound : Wallet.Sound w.wallet
  sent : ∀ event, w.wallet.Recorded event → w.service.outbox.Has event
  sourced : Sourced w.wallet
  books : w.wallet.depositSum id = w.service.outbox.sumOf (received id w.wallet)

theorem Inv.start (id : DepositId) : Inv id .start := by
  refine ⟨.empty id, .empty, ?_, ?_, rfl⟩
  · intro event hrecorded
    simp [SettlementWorld.start, Wallet.Db.Recorded, Wallet.Db.empty] at hrecorded
  · intro e he
    simp [SettlementWorld.start, Wallet.Db.depositEntries, Table.select, Wallet.Db.empty] at he

variable {adapter settings config} {id : DepositId} {w : SettlementWorld}

theorem Inv.service (h : Inv id w) {service : Blockchain.Db}
    (htells : Tells id w.service service) : Inv id { w with service } := by
  refine ⟨htells.told h.told, h.sound, ?_, h.sourced, ?_⟩
  · exact fun event hrecorded => htells.grows.has (h.sent event hrecorded)
  · rw [h.books]
    apply (htells.grows.sumOf ?_).symm
    intro envelope hunsent
    exact if_neg fun hrecorded => hunsent (h.sent _ hrecorded)

theorem Inv.wallet (h : Inv id w) {wallet : Wallet.Db} (hsound : Wallet.Sound wallet)
    (hsteady : Wallet.Steady w.wallet wallet) : Inv id { w with wallet } := by
  have hrecorded : ∀ event, wallet.Recorded event ↔ w.wallet.Recorded event := by
    intro event
    rw [Wallet.Db.Recorded, Wallet.Db.Recorded, hsteady.processedEvents]
  refine ⟨h.told, hsound, ?_, ?_, ?_⟩
  · exact fun event hevent => h.sent event ((hrecorded event).mp hevent)
  · intro e he
    rw [hsteady.deposits] at he
    obtain ⟨event, hsource, hevent⟩ := h.sourced e he
    exact ⟨event, hsource, (hrecorded event).mpr hevent⟩
  · have hreceived : received id wallet = received id w.wallet := by
      funext envelope
      simp only [received, hrecorded]
    rw [Wallet.Db.depositSum, hsteady.deposits, hreceived]
    exact h.books

theorem Inv.delivered (h : Inv id w) {wallet : Wallet.Db} (hsound : Wallet.Sound wallet)
    {envelope : Envelope} (hmem : envelope ∈ w.service.outbox.envelopes)
    (hsettles : Settles id envelope w.wallet wallet) : Inv id { w with wallet } := by
  refine ⟨h.told, hsound, ?_, hsettles.sourced, ?_⟩
  · intro event hevent
    rcases (hsettles.recorded event).mp hevent with hold | rfl
    · exact h.sent event hold
    · exact (Outbox.has_iff _ _).mpr ⟨envelope, hmem, rfl⟩
  · have hother : ∀ other : Envelope, other.eventId ≠ envelope.eventId →
        received id wallet other = received id w.wallet other := by
      intro other hne
      simp only [received, hsettles.recorded, hne, or_false]
    have hold : received id w.wallet envelope = 0 := if_neg hsettles.fresh
    have hnew : received id wallet envelope = postedUnits id envelope :=
      if_pos ((hsettles.recorded _).mpr (Or.inr rfl))
    rw [hsettles.depositSum, h.books, w.service.outbox.sumOf_update hmem hother, hold, hnew,
      sub_zero]

theorem Inv.step (h : Inv id w) (action : SettlementAction σ)
    (hadmitted : Admitted adapter settings id w action) :
    Inv id (step adapter settings config action w) := by
  cases action with
  | service task => exact h.service (task.run_tells hadmitted)
  | wallet s =>
      apply h.wallet (Wallet.step_sound h.sound config s.val)
      apply commit_preserves (I := Wallet.Steady w.wallet)
      · exact (Wallet.Undisturbed.refl w.wallet).steady
      · exact Wallet.stepTx_steady w.wallet config s.property
  | deliver scope eventId =>
      simp only [SettlementWorld.step]
      cases hrow : w.service.outbox.find? eventId with
      | none => exact h
      | some row =>
          have hmem : row.envelope ∈ w.service.outbox.envelopes :=
            List.mem_map_of_mem (Table.mem_of_find? hrow)
          have hsound := Wallet.step_sound h.sound config (.dispatch scope row.envelope)
          have hcases : Wallet.step config (.dispatch scope row.envelope) w.wallet = w.wallet ∨
              Settles id row.envelope w.wallet
                (Wallet.step config (.dispatch scope row.envelope) w.wallet) := by
            apply commit_preserves (I := fun db => db = w.wallet ∨
              Settles id row.envelope w.wallet db) (Or.inl rfl)
            exact Wallet.Ensures.discard (dispatch_settles h.sound h.sourced scope
              (h.told.news row.envelope hmem) (hadmitted row hrow))
          rcases hcases with hsame | hsettles
          · dsimp only
            rw [hsame]
            exact h
          · exact h.delivered hsound hmem hsettles

/-- In every run in which no event about the deposit is lost, once the wallet has handled
the deposit events the ledger holds what the row says. -/
theorem admitted_runs_settle_deposits {actions : List (SettlementAction σ)}
    (hrun : AdmittedRun (step adapter settings config) (Admitted adapter settings id)
      .start actions)
    (hhandled : (runSteps (step adapter settings config) .start actions).Handled) :
    (runSteps (step adapter settings config) .start actions).wallet.depositSum id =
      standing (runSteps (step adapter settings config) .start actions).service id := by
  have hinv : Inv id (runSteps (step adapter settings config) .start actions) :=
    AdmittedRun.invariant (I := Inv id) (fun _ action h hadmitted => h.step action hadmitted)
      (Inv.start id) hrun
  rw [hinv.books, ← hinv.told.balance]
  apply congrArg List.sum
  apply List.map_congr_left
  intro envelope hmem
  unfold received
  split
  next => rfl
  next hunhandled =>
    cases htype : postsDeposit envelope.eventType with
    | false => exact (Blockchain.postedUnits_of_beside id htype).symm
    | true => exact (hunhandled (hhandled envelope hmem htype)).elim

/-! ### The same block comes back -/

/-- The ends of the chain: the payment is in the first block, in none, or in the first
block of another fork. -/
inductive Ending where
  | original
  | forked
  | rebuilt
  deriving DecidableEq

def rebuiltBlock : ChainHash := .literal "0xf1" (by decide)

def Ending.record : Ending → RecordedChain
  | original => {
      blocks := Blockchain.Fork.alone.block :: Blockchain.Fork.alone.above
      logs := [spelledLog Blockchain.custodyAddress.address.val]
      placed := by decide
      unique := by decide
      together := by decide }
  | forked => {
      blocks := [.literal "0xd1" (by decide), .literal "0xd2" (by decide),
        .literal "0xd3" (by decide), .literal "0xd4" (by decide)]
      logs := []
      placed := by decide
      unique := by decide
      together := by decide }
  | rebuilt => {
      blocks := [rebuiltBlock, .literal "0xf2" (by decide), .literal "0xf3" (by decide)]
      logs := [{ spelledLog Blockchain.custodyAddress.address.val with
        blockHash := rebuiltBlock }]
      placed := by decide
      unique := by decide
      together := by decide }

def endingAdapter : ChainAdapter Ending := recordedAdapter .ascii Ending.record

def scanOf (ending : Ending) : SettlementAction Ending :=
  .service (.deposits (.scan Blockchain.someScope (fun _ => someUuid 9) (.fixed ending)))

def watchOf (ending : Ending) : SettlementAction Ending :=
  .service (.deposits (.watch Blockchain.someScope ending fun _ => .fixed ending))

def paymentId : DepositId := (spelledLog "").identity

def paymentBlock : ChainHash := (spelledLog "").blockHash

/-- The address is registered, and the payment to it confirmed. -/
def confirmedOnce : List (SettlementAction Ending) :=
  [.wallet ⟨.createUser 1 "Alice" "alice@example.com", rfl⟩,
    .wallet ⟨.attachWallet (someUuid 1) 1 "BSC" "USDT"
      Blockchain.custodyAddress.address.val, rfl⟩,
    .service (.deposits (.issueAddress "user-1" "BSC"
      Blockchain.custodyAddress.address.val)),
    scanOf .original, watchOf .original,
    .deliver Blockchain.someScope (confirmedEventId paymentId paymentBlock)]

/-- The block is orphaned, and then canonical again. -/
def confirmedAgain : List (SettlementAction Ending) :=
  confirmedOnce ++ [watchOf .forked, scanOf .forked,
    .deliver Blockchain.someScope (reorgedEventId paymentId paymentBlock),
    scanOf .original, watchOf .original]

@[irreducible] def afterActions (actions : List (SettlementAction Ending)) :
    SettlementWorld :=
  runSteps (step endingAdapter .standard Wallet.spentConfig) .start actions

/-- The deposit is confirmed again, all events are handled, and the ledger holds nothing. -/
theorem second_confirmation_is_swallowed :
    (afterActions confirmedAgain).Handled ∧
      (∃ w ∈ (afterActions confirmedAgain).wallet.wallets.rows,
        w.address = Blockchain.custodyAddress.address.val) ∧
      (∃ d ∈ (afterActions confirmedAgain).service.deposits.find? paymentId,
        d.status = .confirmed) ∧
      (afterActions confirmedAgain).wallet.depositSum paymentId = 0 ∧
      standing (afterActions confirmedAgain).service paymentId = 500 := by
  decide +kernel

/-- The block is orphaned, and the payment mined again in another. -/
def confirmedElsewhere : List (SettlementAction Ending) :=
  confirmedOnce ++ [watchOf .forked, scanOf .forked,
    .deliver Blockchain.someScope (reorgedEventId paymentId paymentBlock),
    scanOf .rebuilt, watchOf .rebuilt,
    .deliver Blockchain.someScope (confirmedEventId paymentId rebuiltBlock)]

theorem confirmedElsewhere_facts :
    AdmittedRun (step endingAdapter .standard Wallet.spentConfig)
        (Admitted endingAdapter .standard paymentId) .start confirmedElsewhere ∧
      (runSteps (step endingAdapter .standard Wallet.spentConfig) .start
        confirmedElsewhere).Handled ∧
      (runSteps (step endingAdapter .standard Wallet.spentConfig) .start
        confirmedElsewhere).service.outbox.Has (reorgedEventId paymentId paymentBlock) ∧
      standing (runSteps (step endingAdapter .standard Wallet.spentConfig) .start
        confirmedElsewhere).service paymentId = 500 := by
  decide +kernel

theorem later_confirmation_is_credited :
    (runSteps (step endingAdapter .standard Wallet.spentConfig) .start
        confirmedElsewhere).service.outbox.Has (reorgedEventId paymentId paymentBlock) ∧
      (runSteps (step endingAdapter .standard Wallet.spentConfig) .start
        confirmedElsewhere).wallet.depositSum paymentId = 500 := by
  obtain ⟨hrun, hhandled, hreorged, hstanding⟩ := confirmedElsewhere_facts
  have hsettled := admitted_runs_settle_deposits hrun hhandled
  exact ⟨hreorged, hsettled.trans hstanding⟩

end SettlementWorld

end CryptoWallet
