import CryptoWallet.WalletTransfers

/-!
# Deposits and the event dispatcher

Only a confirmed deposit credits; a reorged one which had been confirmed is
taken back by a reversal.  Both are keyed by the identity of the log together
with a block hash, so the ledger absorbs a repeated credit or reversal of the
same block.

The dispatcher claims the event id and runs the handler in one transaction: a
handler which raises leaves no trace, not even the claim.
-/

namespace CryptoWallet.Wallet

open Tx

/-! ## Deposits -/

/-- `network:tx_hash:log_index:block_hash`, the block hash under `hashKey`. -/
def depositReference (payload : Payload) (hashKey : String) :
    Except Failure String := do
  let network ← payload.item "network"
  let txHash ← payload.item "tx_hash"
  let logIndex ← payload.item "log_index"
  let blockHash := payload.getD hashKey (.str "")
  return network.toStr ++ ":" ++ txHash.toStr ++ ":" ++ logIndex.toStr ++
    ":" ++ blockHash.toStr

def referenceId (payload : Payload) : Except Failure String :=
  depositReference payload "block_hash"

def reversalReferenceId (payload : Payload) : Except Failure String :=
  depositReference payload "orphaned_block_hash"

/-- A value bound to the NOT NULL column `balances.asset`. -/
def assetText (value : Json) : Except Failure String := do
  match ← bindText value with
  | none => .error (.integrity .balancesAssetNotNull)
  | some text => .ok text

def postDeposit (scope : Scope) (asset : Json) (posting : Posting) :
    WalletTx Outcome := do
  let asset ← orRaise (assetText asset)
  let written ← postEntries scope asset [posting]
  return if written = 0 then .duplicate else .processed

def creditDeposit (scope : Scope) (payload : Payload) : WalletTx Outcome := do
  match ← walletByAddress (← orRaise (payload.item "to_address")) with
  | none => return .ignored
  | some wallet =>
    let amountUnits ← orRaise (payload.item "amount_units")
    let amount ← orRaise (pyIntOf amountUnits)
    let asset ← orRaise (payload.item "asset")
    let reference ← orRaise (referenceId payload)
    postDeposit scope asset ⟨wallet.userId, amount, .deposit, .deposit, reference⟩

def reverseDeposit (scope : Scope) (payload : Payload) : WalletTx Outcome := do
  if (payload.getD "was_confirmed" .null).truthy = false then return .processed
  else
    match ← walletByAddress (← orRaise (payload.item "to_address")) with
    | none => return .ignored
    | some wallet =>
      let amountUnits ← orRaise (payload.item "amount_units")
      let amount ← orRaise (pyIntOf amountUnits)
      let reference ← orRaise (reversalReferenceId payload)
      let asset ← orRaise (payload.item "asset")
      postDeposit scope asset
        ⟨wallet.userId, -amount, .reversal, .deposit, reference⟩

/-! ## The dispatcher -/

def consumerName : String := "wallet-service"

/-- The insertion into `processed_events`; `false` when the id is taken. -/
def claimEvent (envelope : Envelope) : WalletTx Bool := do
  match envelope.eventId with
  | .malformed _ => throw .valueError
  | eventId =>
    let _ ← orRaise (varchar 64 envelope.eventType.name)
    match ← query (·.processedEvents.insert?
        ⟨consumerName, eventId, envelope.eventType⟩) with
    | none => return false
    | some processedEvents =>
      modifyDb fun db => { db with processedEvents }
      return true

/-- `correlation_scope(envelope.correlation_id)`. -/
def deliveryScope (scope : Scope) (envelope : Envelope) : Scope :=
  { scope with
    correlationId :=
      if envelope.correlationId = "" then some scope.freshCorrelationId
      else some envelope.correlationId }

def handle (scope : Scope) (eventType : EventType) (payload : Payload) :
    WalletTx Outcome :=
  match eventType with
  | .depositDetected => return .processed
  | .depositConfirmed => creditDeposit scope payload
  | .depositReorged => reverseDeposit scope payload
  | .txBroadcasted => markBroadcasted scope payload
  | .txConfirmed => settleTransfer scope payload
  | .txFailed => failTransfer scope payload
  | .transferRequested | .unknown _ => return .ignored

def dispatch (scope : Scope) (envelope : Envelope) : WalletTx Outcome := do
  if ← claimEvent envelope then
    handle (deliveryScope scope envelope) envelope.eventType envelope.payload
  else return .duplicate

/-! ## Specifications -/

theorem depositReference_not_balanceCheck {payload : Payload} {hashKey : String}
    {e : Failure} (h : depositReference payload hashKey = .error e) :
    e.isBalanceCheck = false := by
  unfold depositReference at h
  cases hnetwork : payload.item "network" with
  | error e₁ =>
      simp only [hnetwork, bind, Except.bind, Except.error.injEq] at h
      exact h ▸ item_not_balanceCheck hnetwork
  | ok network =>
      cases htxHash : payload.item "tx_hash" with
      | error e₁ =>
          simp only [hnetwork, htxHash, bind, Except.bind, Except.error.injEq] at h
          exact h ▸ item_not_balanceCheck htxHash
      | ok txHash =>
          cases hlogIndex : payload.item "log_index" with
          | error e₁ =>
              simp only [hnetwork, htxHash, hlogIndex, bind, Except.bind,
                Except.error.injEq] at h
              exact h ▸ item_not_balanceCheck hlogIndex
          | ok logIndex =>
              simp [hnetwork, htxHash, hlogIndex, bind, Except.bind, pure,
                Except.pure] at h

theorem assetText_not_balanceCheck {value : Json} {e : Failure}
    (h : assetText value = .error e) : e.isBalanceCheck = false := by
  unfold assetText at h
  cases hbound : bindText value with
  | error e₁ =>
      simp only [hbound, bind, Except.bind, Except.error.injEq] at h
      exact h ▸ bindText_not_balanceCheck hbound
  | ok bound =>
      cases bound with
      | none =>
          simp only [hbound, bind, Except.bind, Except.error.injEq] at h
          exact h ▸ rfl
      | some text => simp [hbound, bind, Except.bind] at h

/-- What a deposit event does at most: one deposit entry, unless absorbed. -/
def DepositPosted (scope : Scope) (db db' : Db) : Prop :=
  db' = db ∨ ∃ asset posting e, EntryOf scope asset posting e ∧
    posting.referenceType = .deposit ∧
    Moved db db' (unabsorbed db.entryKeys [e]) 0

theorem postDeposit_exact (db : Db) (scope : Scope) (asset : Json) (posting : Posting) :
    Ensures (postDeposit scope asset posting) db
      (fun _ db' => ∃ text e, assetText asset = .ok text ∧ EntryOf scope text posting e ∧
        Moved db db' (unabsorbed db.entryKeys [e]) 0)
      (RejectedOnlyIf (posting.amount < 0)) := by
  unfold postDeposit
  apply Ensures.orRaise_bind ?_
    (fun e he => RejectedOnlyIf.of_not (assetText_not_balanceCheck he))
  intro text htext
  apply Ensures.bind
  · apply (postEntries_ensures db scope text [posting]).mono (fun _ _ h => h)
    intro e he
    refine he.mono ?_
    rintro ⟨k, hlt⟩
    have hnonneg := Db.availableOf_nonneg db k
    simp only [debits, List.map_cons, List.map_nil, List.sum_cons,
      List.sum_nil, add_zero] at hlt
    split at hlt <;> omega
  rintro written db' ⟨candidates, hcandidates, _, hmoved⟩
  have hsorted : sortPostings [posting] = [posting] := rfl
  rw [hsorted] at hcandidates
  cases hcandidates with
  | cons hentry hrest =>
      cases hrest
      exact Ensures.pure ⟨text, _, htext, hentry, hmoved⟩

theorem postDeposit_ensures (db : Db) (scope : Scope) (asset : Json)
    {posting : Posting} (htype : posting.referenceType = .deposit) :
    Ensures (postDeposit scope asset posting) db
      (fun _ db' => DepositPosted scope db db')
      (RejectedOnlyIf (posting.amount < 0)) := by
  apply (postDeposit_exact db scope asset posting).mono ?_ (fun _ h => h)
  rintro _ db' ⟨text, e, _, hentry, hmoved⟩
  exact Or.inr ⟨text, posting, e, hentry, htype, hmoved⟩

/-- The amount a payload carries. -/
def CarriesAmount (payload : Payload) (amount : Int) : Prop :=
  ∃ value, payload.item "amount_units" = .ok value ∧ pyIntOf value = .ok amount

theorem creditDeposit_ensures (db : Db) (scope : Scope) (payload : Payload) :
    Ensures (creditDeposit scope payload) db
      (fun _ db' => DepositPosted scope db db')
      (RejectedOnlyIf (∃ amount, CarriesAmount payload amount ∧ amount < 0)) := by
  unfold creditDeposit
  apply Ensures.orRaise_bind ?_
    (fun e he => RejectedOnlyIf.of_not (item_not_balanceCheck he))
  intro address _
  apply Ensures.bind ((walletByAddress_ensures db address).mono
    (fun _ _ h => h) (fun e he => he.mono False.elim))
  rintro wallet db' ⟨hdb, _⟩
  obtain rfl := hdb.symm
  cases wallet with
  | none => exact Ensures.pure (Or.inl rfl)
  | some wallet =>
      apply Ensures.orRaise_bind ?_
        (fun e he => RejectedOnlyIf.of_not (item_not_balanceCheck he))
      intro amountUnits hamountUnits
      apply Ensures.orRaise_bind ?_
        (fun e he => RejectedOnlyIf.of_not (pyIntOf_not_balanceCheck he))
      intro amount hamount
      apply Ensures.orRaise_bind ?_
        (fun e he => RejectedOnlyIf.of_not (item_not_balanceCheck he))
      intro asset _
      apply Ensures.orRaise_bind ?_
        (fun e he => RejectedOnlyIf.of_not (depositReference_not_balanceCheck he))
      intro reference _
      exact (postDeposit_ensures db scope asset rfl).mono (fun _ _ h => h)
        (fun e he => he.mono fun hlt => ⟨amount, ⟨amountUnits, hamountUnits, hamount⟩, hlt⟩)

theorem reverseDeposit_ensures (db : Db) (scope : Scope) (payload : Payload) :
    Ensures (reverseDeposit scope payload) db
      (fun _ db' => DepositPosted scope db db')
      (RejectedOnlyIf ((payload.getD "was_confirmed" .null).truthy = true)) := by
  unfold reverseDeposit
  split
  · exact Ensures.pure (Or.inl rfl)
  next hconfirmed =>
    have hconfirmed : (payload.getD "was_confirmed" .null).truthy = true := by
      simpa using hconfirmed
    apply Ensures.orRaise_bind ?_
      (fun e he => RejectedOnlyIf.of_not (item_not_balanceCheck he))
    intro address _
    apply Ensures.bind ((walletByAddress_ensures db address).mono
      (fun _ _ h => h) (fun e he => he.mono False.elim))
    rintro wallet db' ⟨hdb, _⟩
    obtain rfl := hdb.symm
    cases wallet with
    | none => exact Ensures.pure (Or.inl rfl)
    | some wallet =>
        apply Ensures.orRaise_bind ?_
          (fun e he => RejectedOnlyIf.of_not (item_not_balanceCheck he))
        intro amountUnits _
        apply Ensures.orRaise_bind ?_
          (fun e he => RejectedOnlyIf.of_not (pyIntOf_not_balanceCheck he))
        intro amount _
        apply Ensures.orRaise_bind ?_
          (fun e he => RejectedOnlyIf.of_not (depositReference_not_balanceCheck he))
        intro reference _
        apply Ensures.orRaise_bind ?_
          (fun e he => RejectedOnlyIf.of_not (item_not_balanceCheck he))
        intro asset _
        exact (postDeposit_ensures db scope asset rfl).mono (fun _ _ h => h)
          (fun e he => he.mono fun _ => hconfirmed)

def Db.Recorded (db : Db) (eventId : EventId) : Prop :=
  (db.processedEvents.find? (consumerName, eventId)).isSome = true

instance (db : Db) (eventId : EventId) : Decidable (db.Recorded eventId) :=
  inferInstanceAs (Decidable (_ = true))

theorem claimEvent_ensures (db : Db) (envelope : Envelope) :
    Ensures (claimEvent envelope) db
      (fun claimed db' =>
        (claimed = false ∧ db' = db ∧
          db.Recorded envelope.eventId) ∨
        (claimed = true ∧ ∃ processedEvents,
          db.processedEvents.insert?
            ⟨consumerName, envelope.eventId, envelope.eventType⟩ =
              some processedEvents ∧
          db' = { db with processedEvents }))
      (RejectedOnlyIf False) := by
  unfold claimEvent
  cases envelope.eventId with
  | malformed text => exact Ensures.throw (RejectedOnlyIf.of_not rfl)
  | uuid5 _ | uuid4 _ =>
      apply Ensures.orRaise_bind ?_
        (fun e he => RejectedOnlyIf.of_not (varchar_not_balanceCheck he))
      intro stored _
      apply Ensures.query_bind
      cases hinsert : db.processedEvents.insert? _ with
      | none =>
          have htaken := (db.processedEvents.insert?_eq_none_iff _).mp hinsert
          exact Ensures.pure (Or.inl ⟨rfl, rfl, htaken⟩)
      | some processedEvents =>
          apply Ensures.modifyDb_bind
          exact Ensures.pure (Or.inr ⟨rfl, processedEvents, rfl, rfl⟩)

end CryptoWallet.Wallet
