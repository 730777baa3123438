import CryptoWallet.WalletApi

/-!
# Runs of the wallet service

A step is one transaction of the service against the committed database: a
request, a round of a worker, or the delivery of an arbitrary envelope.  Ids
and the clock are arguments of the step.  The main results hold after every
list of steps from the empty database, including steps which raise and are
rolled back.
-/

namespace CryptoWallet.Wallet

open Tx

structure Config where
  letterCase : LetterCase
  api : ApiSettings
  relay : RelaySettings

inductive Step where
  | createUser (newId : Int) (name email : String)
  | attachWallet (newId : Uuid) (userId : Int) (network asset address : String)
  | createTransfer (scope : Scope) (newId : Uuid) (request : TransferRequest)
  | postTransfer (scope : Scope) (newId : Uuid) (body : CreateTransferRequest)
  | relay (now : Nat) (publishError : EventId → Option String)
  | progress (now : Nat)
  | dispatch (scope : Scope) (envelope : Envelope)

def stepTx (config : Config) : Step → WalletTx Unit
  | .createUser newId name email => do
    let _ ← createUser config.letterCase newId name email
  | .attachWallet newId userId network asset address => do
    let _ ← attachWallet newId userId network asset address
  | .createTransfer scope newId request => do
    let _ ← createTransfer scope newId request
  | .postTransfer scope newId body => do
    let _ ← postTransfer config.api scope newId body
  | .relay now publishError =>
    modifyDb fun db => { db with
      outbox := (relayOnce config.relay now publishError db.outbox).1 }
  | .progress now => do
    let _ ← progressOnce now
  | .dispatch scope envelope => do
    let _ ← dispatch scope envelope

def step (config : Config) (s : Step) (db : Db) : Db :=
  (commit (stepTx config s) db).2

/-- The state after a list of steps from the empty database. -/
def run (config : Config) (steps : List Step) : Db :=
  runSteps (step config) Db.empty steps

theorem run_append (config : Config) (before after : List Step) :
    run config (before ++ after) =
      runSteps (step config) (run config before) after :=
  runSteps_append Db.empty before after

/-! ## Soundness of every reachable state -/

/-- Why a step can be rejected by a CHECK constraint on `balances`. -/
def StepRejection (db : Db) : Step → Prop
  | .createTransfer _ _ request => request.amountUnits < 0
  | .dispatch _ envelope => RejectionCause db envelope.eventType envelope.payload
  | _ => False

theorem Ensures.discard {α : Type} {tx : WalletTx α} {db : Db} {I : Db → Prop}
    {raises : Failure → Prop} (h : Ensures tx db (fun _ => I) raises) :
    Ensures (do let _ ← tx) db (fun _ => I) raises :=
  Ensures.bind h fun _ _ h => Ensures.pure h

theorem stepTx_sound {db : Db} (h : Sound db) (config : Config) (s : Step) :
    Ensures (stepTx config s) db (fun _ => Sound)
      (RejectedOnlyIf (StepRejection db s)) := by
  cases s with
  | createUser newId name email =>
      exact Ensures.discard (createUser_sound h config.letterCase newId name email)
  | attachWallet newId userId network asset address =>
      exact Ensures.discard (attachWallet_sound h newId userId network asset address)
  | createTransfer scope newId request =>
      exact Ensures.discard (createTransfer_sound h scope newId request)
  | postTransfer scope newId body =>
      exact Ensures.discard (postTransfer_sound h config.api scope newId body)
  | relay now publishError =>
      unfold stepTx
      apply Ensures.modifyDb
      exact h.congr rfl rfl rfl
  | progress now =>
      apply Ensures.discard
      apply (progressOnce_ensures db now).mono
      · rintro _ _ rfl
        exact h.progressed now
      · exact fun _ he => he.mono False.elim
  | dispatch scope envelope => exact Ensures.discard (dispatch_sound h scope envelope)

theorem step_sound {db : Db} (h : Sound db) (config : Config) (s : Step) :
    Sound (step config s db) :=
  commit_preserves h (stepTx_sound h config s)

theorem runSteps_sound {db : Db} (h : Sound db) (config : Config)
    (steps : List Step) : Sound (runSteps (step config) db steps) := by
  have hstep : ∀ db s, Sound db → Sound (step config s db) :=
    fun _ s hs => step_sound hs config s
  exact runSteps_preserves hstep h steps

theorem run_sound (config : Config) (steps : List Step) :
    Sound (run config steps) :=
  runSteps_sound Sound.empty config steps

/-- Ledger and snapshot never drift, and every entry has a balance row. -/
theorem snapshots_agree_with_ledger (config : Config) (steps : List Step) :
    (∀ k, (run config steps).postedOf k = (run config steps).ledgerSum k) ∧
      ∀ e ∈ (run config steps).ledger.rows, (run config steps).hasRow e.account :=
  ⟨(run_sound config steps).posted, (run_sound config steps).rows⟩

/-- Holds are exactly the open transfers. -/
theorem holds_are_open_transfers (config : Config) (steps : List Step)
    (k : Account) :
    (run config steps).reservedOf k = (run config steps).openSum k :=
  (run_sound config steps).held k

/-! ## Statuses only move forward -/

theorem SameTerms.refl (t : Transfer) : SameTerms t t :=
  ⟨rfl, rfl, rfl, rfl, rfl, rfl, rfl, rfl, rfl⟩

theorem SameTerms.trans {t t' t'' : Transfer} (h : SameTerms t t')
    (h' : SameTerms t' t'') : SameTerms t t'' where
  id := h'.id.trans h.id
  idempotencyKey := h'.idempotencyKey.trans h.idempotencyKey
  fromUserId := h'.fromUserId.trans h.fromUserId
  toUserId := h'.toUserId.trans h.toUserId
  asset := h'.asset.trans h.asset
  network := h'.network.trans h.network
  amount := h'.amount.trans h.amount
  fromAddress := h'.fromAddress.trans h.fromAddress
  toAddress := h'.toAddress.trans h.toAddress

/-- A transfer keeps its terms and its status does not move back. -/
structure Forward (t t' : Transfer) : Prop where
  terms : SameTerms t t'
  rank : t.status.rank ≤ t'.status.rank

theorem Forward.refl (t : Transfer) : Forward t t :=
  ⟨SameTerms.refl t, le_refl _⟩

theorem Forward.trans {t t' t'' : Transfer} (h : Forward t t')
    (h' : Forward t' t'') : Forward t t'' :=
  ⟨h.terms.trans h'.terms, le_trans h.rank h'.rank⟩

/-- The transfers move forward row by row, no row is added to them, entries are only
appended, and no balance row is lost. -/
structure Evolved (db db' : Db) : Prop where
  transfers : List.Forall₂ Forward db.transfers.rows db'.transfers.rows
  idempotencyKeys : db'.idempotencyKeys = db.idempotencyKeys
  ledger : db.ledger.rows <+: db'.ledger.rows
  rows : ∀ k, db.hasRow k → db'.hasRow k

theorem Evolved.keys {db db' : Db} (h : Evolved db db') :
    ∀ k ∈ db.entryKeys, k ∈ db'.entryKeys :=
  fun _ hk => (h.ledger.map LedgerEntry.key).subset hk

/-- What a handler does at most. -/
structure Handled (db db' : Db) : Prop where
  evolved : Evolved db db'
  wallets : db'.wallets = db.wallets
  processedEvents : db'.processedEvents = db.processedEvents

theorem forall₂_map_self {α : Type} {R : α → α → Prop} {f : α → α} {rows : List α}
    (h : ∀ row ∈ rows, R row (f row)) : List.Forall₂ R rows (rows.map f) := by
  rw [List.forall₂_map_right_iff, List.forall₂_same]
  exact h

theorem Moved.ledger_prefix {db db' : Db} {entries : List LedgerEntry}
    {hold : Account → Int} (h : Moved db db' entries hold) :
    db.ledger.rows <+: db'.ledger.rows := ⟨entries, h.ledger.symm⟩

theorem Moved.keys_mono {db db' : Db} {entries : List LedgerEntry}
    {hold : Account → Int} (h : Moved db db' entries hold) :
    ∀ k ∈ db.entryKeys, k ∈ db'.entryKeys := by
  intro k hk
  rw [h.entryKeys]
  exact List.mem_append_left _ hk

theorem Evolved.of_moved {db db' : Db} {entries : List LedgerEntry}
    {hold : Account → Int} (h : Moved db db' entries hold) : Evolved db db' where
  transfers := by
    rw [h.frame.transfers, List.forall₂_same]
    exact fun t _ => Forward.refl t
  idempotencyKeys := h.frame.idempotencyKeys
  ledger := h.ledger_prefix
  rows := h.rows

namespace Handled

theorem of_moved {db db' : Db} {entries : List LedgerEntry}
    {hold : Account → Int} (h : Moved db db' entries hold) : Handled db db' :=
  ⟨Evolved.of_moved h, h.frame.wallets, h.frame.processedEvents⟩

theorem refl (db : Db) : Handled db db := of_moved (Moved.refl db)

theorem of_transition {db db' : Db} {t t' : Transfer}
    {entries : List LedgerEntry} {hold : Account → Int}
    (h : Transition db db' t t' entries hold)
    (hrank : t.status.rank ≤ t'.status.rank) : Handled db db' := by
  obtain ⟨mid, hmoved, rfl⟩ := h.change
  refine ⟨⟨?_, hmoved.frame.idempotencyKeys, hmoved.ledger_prefix, hmoved.rows⟩,
    hmoved.frame.wallets, hmoved.frame.processedEvents⟩
  rw [Table.replace_rows, hmoved.frame.transfers]
  apply forall₂_map_self
  intro row hrow
  split
  next hid =>
    rw [h.terms.id] at hid
    have hsame : row = t :=
      db.transfers.eq_of_mem_of_key_eq hrow (Table.mem_of_find? h.find) hid
    exact hsame ▸ ⟨h.terms, hrank⟩
  next => exact Forward.refl row

theorem of_depositPosted {scope : Scope} {db db' : Db}
    (h : DepositPosted scope db db') : Handled db db' := by
  rcases h with rfl | ⟨_, _, _, _, _, hmoved⟩
  · exact refl db'
  · exact of_moved hmoved

end Handled

theorem rank_le_broadcasted {status : TransferStatus} (h : status.isOpen = true) :
    status.rank ≤ TransferStatus.rank .broadcasted := by
  cases status <;> simp_all [TransferStatus.isOpen, TransferStatus.rank]

theorem rank_le_failed (status : TransferStatus) :
    status.rank ≤ TransferStatus.rank .failed := by
  cases status <;> simp [TransferStatus.rank]

theorem advanced_forward (now : Nat) (outbox : Outbox) (t : Transfer) :
    Forward t (advanced now outbox t) := by
  refine ⟨advanced_terms now outbox t, ?_⟩
  unfold advanced
  split
  next hadvances =>
    simp only [advances, Bool.and_eq_true, decide_eq_true_eq] at hadvances
    simp [hadvances.1, TransferStatus.rank]
  next => exact le_refl _

theorem handle_handled {db : Db} (h : Sound db) (scope : Scope)
    (eventType : EventType) (payload : Payload) :
    Ensures (handle scope eventType payload) db (fun _ => Handled db)
      (fun _ => True) := by
  cases eventType with
  | depositDetected => exact Ensures.pure (Handled.refl db)
  | depositConfirmed =>
      exact (creditDeposit_ensures db scope payload).mono
        (fun _ _ hposted => Handled.of_depositPosted hposted) (fun _ _ => trivial)
  | depositReorged =>
      exact (reverseDeposit_ensures db scope payload).mono
        (fun _ _ hposted => Handled.of_depositPosted hposted) (fun _ _ => trivial)
  | txBroadcasted =>
      apply (markBroadcasted_ensures db scope payload).mono
      · rintro _ db' (⟨rfl, _⟩ | ⟨t, t', _, hopen, hstatus, htransition⟩)
        · exact Handled.refl db'
        · apply Handled.of_transition htransition
          rw [hstatus]
          exact rank_le_broadcasted hopen
      · exact fun _ _ => trivial
  | txConfirmed =>
      apply (settleTransfer_ensures h.holdsCovered scope payload).mono
      · rintro _ db' (⟨rfl, _⟩ | ⟨t, t', _, _, hopen, hstatus, _, htransition⟩)
        · exact Handled.refl db'
        · apply Handled.of_transition htransition
          rw [hstatus]
          exact le_trans (rank_le_broadcasted hopen) (by simp [TransferStatus.rank])
      · exact fun _ _ => trivial
  | txFailed =>
      apply (failTransfer_ensures h.holdsCovered scope payload).mono
      · rintro _ db' (⟨rfl, _⟩ | ⟨t, t', _, hstatus, hcases⟩)
        · exact Handled.refl db'
        · have hrank : t.status.rank ≤ t'.status.rank := by
            rw [hstatus]
            exact rank_le_failed t.status
          rcases hcases with ⟨_, htransition⟩ | ⟨_, _, _, htransition⟩
          · exact Handled.of_transition htransition hrank
          · exact Handled.of_transition htransition hrank
      · exact fun _ _ => trivial
  | transferRequested => exact Ensures.pure (Handled.refl db)
  | unknown name => exact Ensures.pure (Handled.refl db)

/-- A delivery is a duplicate, or its id is recorded and it is handled. -/
theorem dispatch_ensures {db : Db} (h : Sound db) (scope : Scope)
    (envelope : Envelope) :
    Ensures (dispatch scope envelope) db
      (fun _ db' => (db' = db ∧ db.Recorded envelope.eventId) ∨
        ∃ processedEvents, db.processedEvents.insert?
            ⟨consumerName, envelope.eventId, envelope.eventType⟩ =
              some processedEvents ∧
          Handled { db with processedEvents } db')
      (fun _ => True) := by
  unfold dispatch
  apply Ensures.bind ((claimEvent_ensures db envelope).mono (fun _ _ h => h)
    (fun _ _ => trivial))
  rintro claimed db₁ (⟨rfl, rfl, hrecorded⟩ | ⟨rfl, processedEvents, hinsert, rfl⟩)
  · exact Ensures.pure (Or.inl ⟨rfl, hrecorded⟩)
  · have h₁ : Sound { db with processedEvents } := h.congr rfl rfl rfl
    apply (handle_handled h₁ (deliveryScope scope envelope) envelope.eventType
      envelope.payload).mono ?_ (fun _ h => h)
    exact fun _ _ hhandled => Or.inr ⟨processedEvents, hinsert, hhandled⟩

theorem dispatch_evolves {db : Db} (h : Sound db) (scope : Scope)
    (envelope : Envelope) :
    Ensures (dispatch scope envelope) db (fun _ => Evolved db)
      (fun _ => True) := by
  apply (dispatch_ensures h scope envelope).mono ?_ (fun _ h => h)
  rintro _ db' (⟨rfl, _⟩ | ⟨_, _, hhandled⟩)
  · exact (Handled.refl db').evolved
  · have hevolved := hhandled.evolved
    exact ⟨hevolved.transfers, hevolved.idempotencyKeys, hevolved.ledger,
      hevolved.rows⟩

/-- The steps which can create a transfer. -/
def Step.creates : Step → Bool
  | .createTransfer _ _ _ | .postTransfer _ _ _ => true
  | _ => false

theorem stepTx_evolves {db : Db} (h : Sound db) (config : Config) {s : Step}
    (hs : s.creates = false) :
    Ensures (stepTx config s) db (fun _ => Evolved db) (fun _ => True) := by
  have hrefl := (Handled.refl db).evolved
  cases s with
  | createUser newId name email =>
      apply Ensures.discard
      apply (createUser_ensures db config.letterCase newId name email).mono
      · rintro _ _ ⟨_, users, _, rfl⟩
        exact ⟨hrefl.transfers, rfl, hrefl.ledger, hrefl.rows⟩
      · exact fun _ _ => trivial
  | attachWallet newId userId network asset address =>
      apply Ensures.discard
      apply (attachWallet_ensures db newId userId network asset address).mono
      · rintro _ db' ⟨_, wallets, hmoved, _⟩
        have hevolved := Evolved.of_moved hmoved
        exact ⟨hevolved.transfers, hevolved.idempotencyKeys, hevolved.ledger,
          hevolved.rows⟩
      · exact fun _ _ => trivial
  | createTransfer scope newId request => cases hs
  | postTransfer scope newId body => cases hs
  | relay now publishError =>
      unfold stepTx
      apply Ensures.modifyDb
      exact ⟨hrefl.transfers, rfl, hrefl.ledger, hrefl.rows⟩
  | progress now =>
      apply Ensures.discard
      apply (progressOnce_ensures db now).mono
      · rintro _ _ rfl
        exact ⟨forall₂_map_self fun t _ => advanced_forward now db.outbox t, rfl,
          hrefl.ledger, hrefl.rows⟩
      · exact fun _ _ => trivial
  | dispatch scope envelope =>
      exact Ensures.discard (dispatch_evolves h scope envelope)

/-- Every transfer survives, at the same or a later status. -/
def Grows (db db' : Db) : Prop :=
  ∀ t ∈ db.transfers.rows, ∃ t' ∈ db'.transfers.rows, Forward t t'

theorem Grows.refl (db : Db) : Grows db db :=
  fun t ht => ⟨t, ht, Forward.refl t⟩

theorem Grows.trans {db₁ db₂ db₃ : Db} (h : Grows db₁ db₂) (h' : Grows db₂ db₃) :
    Grows db₁ db₃ := by
  intro t ht
  obtain ⟨t', ht', hforward⟩ := h t ht
  obtain ⟨t'', ht'', hforward'⟩ := h' t' ht'
  exact ⟨t'', ht'', hforward.trans hforward'⟩

theorem Evolved.grows {db db' : Db} (h : Evolved db db') : Grows db db' := by
  intro t ht
  obtain ⟨i, hi, rfl⟩ := List.getElem_of_mem ht
  have hi' : i < db'.transfers.rows.length := h.transfers.length_eq ▸ hi
  exact ⟨db'.transfers.rows[i], List.getElem_mem hi', h.transfers.get hi hi'⟩

theorem TransferCreated.rows {scope : Scope} {newId : Uuid}
    {request : TransferRequest} {db db' : Db} {t : Transfer}
    (h : TransferCreated scope newId request db t db') :
    db'.transfers.rows = db.transfers.rows ++ [t] := by
  obtain ⟨asset, mid, transfers, outbox, _, _, hmoved, hinsert, _, rfl⟩ := h.change
  rw [Table.insert?_rows hinsert, hmoved.frame.transfers]

theorem TransferCreated.grows {scope : Scope} {newId : Uuid}
    {request : TransferRequest} {db db' : Db} {t : Transfer}
    (h : TransferCreated scope newId request db t db') : Grows db db' := by
  intro row hrow
  exact ⟨row, by rw [h.rows]; exact List.mem_append_left _ hrow, Forward.refl row⟩

theorem Posted.grows {settings : ApiSettings} {scope : Scope} {newId : Uuid}
    {request : TransferRequest} {db db' : Db} {response : PostResponse}
    (h : Posted settings scope newId request db response db') : Grows db db' := by
  cases h with
  | replayed => exact Grows.refl db
  | created hcreated _ _ =>
      intro t ht
      exact hcreated.grows t ht

theorem stepTx_grows {db : Db} (h : Sound db) (config : Config) (s : Step) :
    Ensures (stepTx config s) db (fun _ => Grows db) (fun _ => True) := by
  cases hs : s.creates with
  | false =>
      exact (stepTx_evolves h config hs).mono (fun _ _ h => h.grows) (fun _ h => h)
  | true =>
      cases s with
      | createTransfer scope newId request =>
          apply Ensures.discard
          exact (createTransfer_ensures db scope newId request).mono
            (fun _ _ hcreated => hcreated.grows) (fun _ _ => trivial)
      | postTransfer scope newId body =>
          apply Ensures.discard
          apply (postTransfer_ensures db config.api scope newId body).mono
          · rintro _ _ ⟨request, _, hposted⟩
            exact hposted.grows
          · exact fun _ _ => trivial
      | createUser _ _ _ | attachWallet _ _ _ _ _ | relay _ _ | progress _
      | dispatch _ _ => cases hs

theorem step_grows {db : Db} (h : Sound db) (config : Config) (s : Step) :
    Grows db (step config s db) :=
  commit_preserves (Grows.refl db) (stepTx_grows h config s)

theorem runSteps_grows {db : Db} (h : Sound db) (config : Config)
    (steps : List Step) : Grows db (runSteps (step config) db steps) := by
  induction steps generalizing db with
  | nil => exact Grows.refl db
  | cons s rest ih =>
      rw [runSteps_cons]
      exact (step_grows h config s).trans (ih (step_sound h config s))

theorem failed_of_rank {status : TransferStatus}
    (h : TransferStatus.rank .failed ≤ status.rank) : status = .failed := by
  cases status <;> simp_all [TransferStatus.rank]

/-- Every transfer is a balanced double entry determined by its status, and
statuses only move forward. -/
theorem transfer_is_double_entry (config : Config) (steps : List Step) :
    (∀ t ∈ (run config steps).transfers.rows,
      History t (((run config steps).entriesOf t.id).map LedgerEntry.movement) ∧
      (((run config steps).entriesOf t.id).map LedgerEntry.amount).sum = 0) ∧
    (∀ among, (run config steps).transferSum among = 0) ∧
    ∀ later, ∀ t ∈ (run config steps).transfers.rows,
      ∃ t' ∈ (run config (steps ++ later)).transfers.rows, SameTerms t t' ∧
        t.status.rank ≤ t'.status.rank ∧
        (t.status = .failed → t'.status = .failed) := by
  have hsound := run_sound config steps
  refine ⟨?_, hsound.balanced, ?_⟩
  · intro t ht
    have hhistory := hsound.histories t ht
    refine ⟨hhistory, ?_⟩
    have hzero := hhistory.sum_zero
    rwa [List.map_map] at hzero
  · intro later t ht
    rw [run_append]
    obtain ⟨t', ht', hforward⟩ := runSteps_grows hsound config later t ht
    refine ⟨t', ht', hforward.terms, hforward.rank, ?_⟩
    intro hfailed
    have hrank := hforward.rank
    rw [hfailed] at hrank
    exact failed_of_rank hrank

/-! ## Nothing but a reversal bounces off a CHECK constraint -/

/-- The transaction raises because an UPDATE violates a CHECK constraint on
`balances`. -/
def Rejected {α : Type} (tx : WalletTx α) (db : Db) : Prop :=
  ∃ e, (commit tx db).1 = .error e ∧ e.isBalanceCheck = true

theorem not_rejected {α : Type} {tx : WalletTx α} {db : Db}
    {post : α → Db → Prop} {reason : Prop}
    (h : Ensures tx db post (RejectedOnlyIf reason)) (hreason : ¬reason) :
    ¬Rejected tx db := by
  rintro ⟨e, he, hcheck⟩
  have hcommit : commit tx db = (.error e, (commit tx db).2) := Prod.ext he rfl
  exact hreason (h.commit_error hcommit hcheck)

/-- In `db` every balance is covered, and only a reversal can be rejected. -/
structure Covered (config : Config) (db : Db) : Prop where
  balances : ∀ b ∈ db.balances.rows, 0 ≤ b.reserved ∧ b.reserved ≤ b.posted
  createTransfer : ∀ scope newId request, 0 ≤ request.amountUnits →
    ¬Rejected (createTransfer scope newId request) db
  postTransfer : ∀ scope newId body,
    ¬Rejected (postTransfer config.api scope newId body) db
  markBroadcasted : ∀ scope payload, ¬Rejected (markBroadcasted scope payload) db
  settleTransfer : ∀ scope payload, ¬Rejected (settleTransfer scope payload) db
  failTransfer : ∀ scope payload t, db.named payload = some t → t.status.isOpen = true →
    ¬Rejected (failTransfer scope payload) db
  creditDeposit : ∀ scope payload amount, CarriesAmount payload amount →
    0 < amount → ¬Rejected (creditDeposit scope payload) db
  step : ∀ s, Rejected (stepTx config s) db → StepRejection db s

theorem CarriesAmount.unique {payload : Payload} {amount amount' : Int}
    (h : CarriesAmount payload amount) (h' : CarriesAmount payload amount') :
    amount = amount' := by
  obtain ⟨value, hvalue, hamount⟩ := h
  obtain ⟨value', hvalue', hamount'⟩ := h'
  rw [hvalue, Except.ok.injEq] at hvalue'
  rw [← hvalue', hamount, Except.ok.injEq] at hamount'
  exact hamount'

theorem Sound.covered {db : Db} (h : Sound db) (config : Config) :
    Covered config db where
  balances := by
    intro b _
    have havailable := b.availableNonNegative
    exact ⟨b.reservedNonNegative, by omega⟩
  createTransfer := by
    intro scope newId request hamount
    exact not_rejected (createTransfer_sound h scope newId request) (by omega)
  postTransfer := by
    intro scope newId body
    exact not_rejected (postTransfer_sound h config.api scope newId body) id
  markBroadcasted := by
    intro scope payload
    exact not_rejected (markBroadcasted_sound h scope payload) id
  settleTransfer := by
    intro scope payload
    exact not_rejected (settleTransfer_sound h scope payload) id
  failTransfer := by
    intro scope payload t hnamed hopen
    apply not_rejected (failTransfer_sound h scope payload)
    rintro ⟨t', hnamed', hconfirmed⟩
    rw [hnamed, Option.some.injEq] at hnamed'
    rw [hnamed', hconfirmed] at hopen
    cases hopen
  creditDeposit := by
    intro scope payload amount hamount hpositive
    apply not_rejected (creditDeposit_ensures db scope payload)
    rintro ⟨amount', hamount', hnegative⟩
    have hsame := hamount.unique hamount'
    omega
  step := by
    intro s hrejected
    by_contra hreason
    exact not_rejected (stepTx_sound h config s) hreason hrejected

/-! A user spends a deposit, and the chain then takes the deposit back. -/

def spentConfig : Config where
  letterCase := .ascii
  api := ⟨"BSC", Sha256.spelled⟩
  relay := ⟨100, 60⟩

def spentScope : Scope := ⟨0, none, "correlation", 0⟩

def spentPayload : Payload :=
  [("network", .str "BSC"), ("asset", .str "USDT"), ("tx_hash", .str "0x1"),
    ("log_index", .int 0), ("to_address", .str "0xA"),
    ("amount_units", .str "100"), ("block_hash", .str "0xb1"),
    ("orphaned_block_hash", .str "0xb1"), ("was_confirmed", .bool true)]

def spentSteps : List Step :=
  [.createUser 1 "Alice" "alice@example.com",
    .createUser 2 "Bob" "bob@example.com",
    .attachWallet (someUuid 1) 1 "BSC" "USDT" "0xA",
    .attachWallet (someUuid 2) 2 "BSC" "USDT" "0xB",
    .dispatch spentScope
      ⟨.uuid4 1, .depositConfirmed, "blockchain-service", "", spentPayload, []⟩,
    .createTransfer spentScope (someUuid 3) ⟨1, 2, "USDT", 100, "key-1", "BSC"⟩]

def spentReorg : Envelope :=
  ⟨.uuid4 2, .depositReorged, "blockchain-service", "", spentPayload, []⟩

set_option maxRecDepth 10000 in
theorem spent_deposit_rejected :
    (commit (stepTx spentConfig (.dispatch spentScope spentReorg))
      (run spentConfig spentSteps)).1 =
      .error (.integrity .ckBalanceAvailableNonNegative) := by
  decide

/-- No overdraft: nothing but a reversal is ever rejected by a CHECK
constraint, and the reversal of a reorged deposit can be. -/
theorem no_overdraft :
    (∀ config steps, Covered config (run config steps)) ∧
      ∃ config steps scope event, event.eventType = .depositReorged ∧
        (commit (stepTx config (.dispatch scope event)) (run config steps)).1 =
          .error (.integrity .ckBalanceAvailableNonNegative) :=
  ⟨fun config steps => (run_sound config steps).covered config,
    spentConfig, spentSteps, spentScope, spentReorg, rfl, spent_deposit_rejected⟩

end CryptoWallet.Wallet
