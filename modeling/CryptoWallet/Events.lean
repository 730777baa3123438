import CryptoWallet.KeyedTable
import CryptoWallet.Failures

/-!
# Events and the transactional outbox

An event id is a UUIDv5 of the event type and a natural key whenever the
producer can name one, and a random UUIDv4 otherwise.  Identifiers are kept
symbolic: two UUIDv5 are equal only for equal names, no UUIDv5 is a UUIDv4, and
an envelope from outside may carry a text which is no UUID at all.

The outbox is written in the transaction of the business change.  The relay
claims the due rows in insertion order, hands each to the bus and marks it, or
postpones it with an exponential backoff.
-/

namespace CryptoWallet

inductive EventType where
  | depositDetected
  | depositConfirmed
  | depositReorged
  | txBroadcasted
  | txConfirmed
  | txFailed
  | transferRequested
  | unknown (name : String)
  deriving DecidableEq

def EventType.name : EventType → String
  | depositDetected => "deposit.detected"
  | depositConfirmed => "deposit.confirmed"
  | depositReorged => "deposit.reorged"
  | txBroadcasted => "blockchain.transaction.broadcasted"
  | txConfirmed => "blockchain.transaction.confirmed"
  | txFailed => "blockchain.transaction.failed"
  | transferRequested => "transfer.requested"
  | unknown name => name

inductive EventId where
  | uuid5 (name : String)
  | uuid4 (draw : Nat)
  | malformed (text : String)
  deriving DecidableEq

structure Envelope where
  eventId : EventId
  eventType : EventType
  producer : String
  correlationId : String
  payload : Payload
  /-- `causation_id`, and the fields which `extra="allow"` keeps. -/
  extra : Payload
  deriving DecidableEq

/-- The ambient values of a request or a delivery: the wall clock, the bound
correlation id, and what `uuid.uuid4` and `new_correlation_id` will draw. -/
structure Scope where
  now : Nat
  correlationId : Option String
  freshCorrelationId : String
  draw : Nat
  deriving DecidableEq

def newEvent (scope : Scope) (eventType : EventType) (payload : Payload)
    (producer : String) (dedupeKey : Option String)
    (correlationId : Option String) : Envelope where
  eventId :=
    match dedupeKey with
    | some key =>
      if key = "" then .uuid4 scope.draw
      else .uuid5 (eventType.name ++ "|" ++ key)
    | none => .uuid4 scope.draw
  eventType
  producer
  correlationId :=
    -- `or` also skips an empty string
    match correlationId.filter (· ≠ ""), scope.correlationId.filter (· ≠ "") with
    | some id, _ => id
    | none, some id => id
    | none, none => scope.freshCorrelationId
  payload
  extra := []

/-! ## The outbox -/

structure OutboxRow where
  envelope : Envelope
  publishedAt : Option Nat
  attempts : Nat
  nextAttemptAt : Option Nat
  lastError : Option String
  deriving DecidableEq

def OutboxRow.eventId (row : OutboxRow) : EventId := row.envelope.eventId

abbrev Outbox := Table EventId OutboxRow OutboxRow.eventId

/-- `INSERT INTO outbox ... ON CONFLICT (event_id) DO NOTHING`. -/
def enqueueEvent (outbox : Outbox) (envelope : Envelope) :
    Except Failure Outbox := do
  let _ ← varchar 64 envelope.eventType.name
  let _ ← varchar 64 envelope.correlationId
  return (outbox.insert? {
    envelope
    publishedAt := none
    attempts := 0
    nextAttemptAt := none
    lastError := none }).getD outbox

/-- The events of an outbox, in the order of their insertion. -/
def Outbox.envelopes (outbox : Outbox) : List Envelope :=
  outbox.rows.map OutboxRow.envelope

/-- An event with this id has been enqueued. -/
def Outbox.Has (outbox : Outbox) (id : EventId) : Prop :=
  (outbox.find? id).isSome = true

instance (outbox : Outbox) (id : EventId) : Decidable (outbox.Has id) :=
  inferInstanceAs (Decidable ((outbox.find? id).isSome = true))

theorem Outbox.nodup_eventIds (outbox : Outbox) :
    (outbox.envelopes.map Envelope.eventId).Nodup := by
  rw [Outbox.envelopes, List.map_map]
  exact outbox.nodup

theorem Outbox.has_iff (outbox : Outbox) (id : EventId) :
    outbox.Has id ↔ ∃ envelope ∈ outbox.envelopes, envelope.eventId = id := by
  constructor
  · intro h
    obtain ⟨row, hrow⟩ := Option.isSome_iff_exists.mp h
    have hid : row.eventId = id := Table.key_of_find? hrow
    exact ⟨row.envelope, List.mem_map_of_mem (Table.mem_of_find? hrow), hid⟩
  · rintro ⟨envelope, hmem, hid⟩
    obtain ⟨row, hrow, rfl⟩ := List.mem_map.mp hmem
    have hfind := outbox.find?_of_mem hrow
    rw [OutboxRow.eventId, hid] at hfind
    exact Option.isSome_iff_exists.mpr ⟨row, hfind⟩

/-- An event whose id is taken is not enqueued again. -/
theorem enqueueEvent_rows {outbox outbox' : Outbox} {envelope : Envelope}
    (h : enqueueEvent outbox envelope = .ok outbox') :
    (outbox.Has envelope.eventId ∧ outbox' = outbox) ∨
      (¬outbox.Has envelope.eventId ∧
        outbox'.rows = outbox.rows ++ [⟨envelope, none, 0, none, none⟩]) := by
  unfold enqueueEvent at h
  obtain ⟨_, _, h⟩ := bind_eq_ok.mp h
  obtain ⟨_, _, h⟩ := bind_eq_ok.mp h
  simp only [pure, Except.pure, Except.ok.injEq] at h
  subst h
  cases hinsert : outbox.insert? _ with
  | none => exact Or.inl ⟨(outbox.insert?_eq_none_iff _).mp hinsert, rfl⟩
  | some inserted =>
      have hfree := Table.insert?_free hinsert
      refine Or.inr ⟨Option.not_isSome_iff_eq_none.mpr hfree, ?_⟩
      simp [Table.insert?_rows hinsert]

theorem enqueueEvent_cases {outbox outbox' : Outbox} {envelope : Envelope}
    (h : enqueueEvent outbox envelope = .ok outbox') :
    (outbox.Has envelope.eventId ∧ outbox' = outbox) ∨
      (¬outbox.Has envelope.eventId ∧
        outbox'.envelopes = outbox.envelopes ++ [envelope]) := by
  apply (enqueueEvent_rows h).imp (fun h => h)
  rintro ⟨hfree, hrows⟩
  refine ⟨hfree, ?_⟩
  simp [Outbox.envelopes, hrows]

/-! ### What is added to an outbox -/

namespace Outbox

/-- The old events come first. -/
def Grows (outbox outbox' : Outbox) : Prop :=
  outbox.envelopes <+: outbox'.envelopes

theorem Grows.refl (outbox : Outbox) : outbox.Grows outbox :=
  List.prefix_refl _

theorem Grows.trans {outbox outbox' outbox'' : Outbox} (h : outbox.Grows outbox')
    (h' : outbox'.Grows outbox'') : outbox.Grows outbox'' :=
  List.IsPrefix.trans h h'

theorem Grows.has {outbox outbox' : Outbox} (h : outbox.Grows outbox') {id : EventId}
    (hid : outbox.Has id) : outbox'.Has id := by
  rw [has_iff] at hid ⊢
  obtain ⟨envelope, hmem, hkey⟩ := hid
  exact ⟨envelope, List.IsPrefix.subset h hmem, hkey⟩

/-- The sum of a weight over the events. -/
def sumOf (outbox : Outbox) (weight : Envelope → Int) : Int :=
  (outbox.envelopes.map weight).sum

/-- A weight which vanishes on events not in the outbox does not see it grow. -/
theorem Grows.sumOf {outbox outbox' : Outbox} (h : outbox.Grows outbox')
    {weight : Envelope → Int}
    (hweight : ∀ envelope : Envelope, ¬outbox.Has envelope.eventId → weight envelope = 0) :
    outbox'.sumOf weight = outbox.sumOf weight := by
  obtain ⟨added, hadded⟩ := h
  have hnodup := outbox'.nodup_eventIds
  rw [← hadded, List.map_append, List.nodup_append] at hnodup
  have hzero : ∀ value ∈ added.map weight, value = 0 := by
    intro value hvalue
    obtain ⟨envelope, hmem, rfl⟩ := List.mem_map.mp hvalue
    apply hweight
    intro hhas
    obtain ⟨old, hold, hkey⟩ := (has_iff outbox _).mp hhas
    exact hnodup.2.2 old.eventId (List.mem_map_of_mem hold) envelope.eventId
      (List.mem_map_of_mem hmem) hkey
  unfold Outbox.sumOf
  rw [← hadded, List.map_append, List.sum_append, List.sum_eq_zero hzero, add_zero]

/-- Weights which agree away from one event differ by what they give to it. -/
theorem sumOf_update (outbox : Outbox) {envelope : Envelope}
    (hmem : envelope ∈ outbox.envelopes) {weight weight' : Envelope → Int}
    (hother : ∀ other : Envelope, other.eventId ≠ envelope.eventId →
      weight' other = weight other) :
    outbox.sumOf weight' = outbox.sumOf weight - weight envelope + weight' envelope := by
  have hnodup := outbox.nodup_eventIds
  obtain ⟨before, after, hsplit⟩ := List.append_of_mem hmem
  rw [hsplit, List.map_append, List.map_cons, List.nodup_append, List.nodup_cons] at hnodup
  obtain ⟨_, ⟨hfresh, _⟩, hdisjoint⟩ := hnodup
  have hbefore : before.map weight' = before.map weight := by
    apply List.map_congr_left
    intro other hmem'
    exact hother other (hdisjoint other.eventId (List.mem_map_of_mem hmem') _ (by simp))
  have hafter : after.map weight' = after.map weight := by
    apply List.map_congr_left
    intro other hmem'
    exact hother other fun heq => hfresh (heq ▸ List.mem_map_of_mem hmem')
  unfold Outbox.sumOf
  rw [hsplit, List.map_append, List.map_append, List.map_cons, List.map_cons, hbefore, hafter]
  simp only [List.sum_append, List.sum_cons]
  omega

end Outbox

theorem enqueueEvent_grows {outbox outbox' : Outbox} {envelope : Envelope}
    (h : enqueueEvent outbox envelope = .ok outbox') : outbox.Grows outbox' := by
  rcases enqueueEvent_cases h with ⟨_, rfl⟩ | ⟨_, hrows⟩
  · exact .refl outbox'
  · exact ⟨[envelope], hrows.symm⟩

theorem enqueueEvent_has_cases {outbox outbox' : Outbox} {envelope : Envelope}
    (h : enqueueEvent outbox envelope = .ok outbox') {id : EventId} (hid : outbox'.Has id) :
    outbox.Has id ∨ id = envelope.eventId := by
  rcases enqueueEvent_cases h with ⟨_, rfl⟩ | ⟨_, hrows⟩
  · exact Or.inl hid
  · rw [Outbox.has_iff, hrows] at hid
    obtain ⟨other, hmem, rfl⟩ := hid
    rcases List.mem_append.mp hmem with hold | hnew
    · exact Or.inl ((outbox.has_iff _).mpr ⟨other, hold, rfl⟩)
    · rw [List.mem_singleton.mp hnew]
      exact Or.inr rfl

/-- A row of the dedupe table of a consumer. -/
structure ProcessedEvent where
  consumer : String
  eventId : EventId
  eventType : EventType
  deriving DecidableEq

def ProcessedEvent.primaryKey (row : ProcessedEvent) : String × EventId :=
  (row.consumer, row.eventId)

abbrev ProcessedEvents :=
  Table (String × EventId) ProcessedEvent ProcessedEvent.primaryKey

/-! ## The relay -/

def OutboxRow.due (now : Nat) (row : OutboxRow) : Bool :=
  row.publishedAt.isNone &&
    match row.nextAttemptAt with
    | none => true
    | some time => time ≤ now

structure RelaySettings where
  batchSize : Nat
  maxBackoff : Nat

def claimBatch (settings : RelaySettings) (now : Nat) (outbox : Outbox) :
    List OutboxRow :=
  (outbox.select (OutboxRow.due now)).take settings.batchSize

def backoff (settings : RelaySettings) (row : OutboxRow) : Nat :=
  min settings.maxBackoff (2 ^ min row.attempts 6)

/-- One row of the batch after the attempt; `some error` is what the bus
raised. -/
def OutboxRow.attempted (settings : RelaySettings) (now : Nat)
    (publishError : Option String) (row : OutboxRow) : OutboxRow :=
  match publishError with
  | none => { row with publishedAt := some now, lastError := none }
  | some error => { row with
      attempts := row.attempts + 1
      lastError := some (String.ofList (error.toList.take 1000))
      nextAttemptAt := some (now + backoff settings row) }

/-- The first 1000 characters of the error fit the column `last_error`. -/
def recordable (error : String) : Bool := !(error.toList.take 1000).contains '\x00'

/-- The loop over the batch: what the bus accepted, and whether the loop came to its end.
The UPDATE raises for an error which cannot be recorded. -/
def publishAll (publishError : EventId → Option String) :
    List OutboxRow → List Envelope × Bool
  | [] => ([], true)
  | row :: rest =>
    match publishError row.eventId with
    | none =>
      let (published, completed) := publishAll publishError rest
      (row.envelope :: published, completed)
    | some error =>
      if recordable error then publishAll publishError rest else ([], false)

/-- `OutboxRelay.run_once`: the new outbox and the published envelopes.  What raises rolls
the whole batch back, and what was published stays published. -/
def relayOnce (settings : RelaySettings) (now : Nat)
    (publishError : EventId → Option String) (outbox : Outbox) :
    Outbox × List Envelope :=
  let batch := claimBatch settings now outbox
  let (published, completed) := publishAll publishError batch
  let outbox' := outbox.mapRows
    (fun row =>
      if row ∈ batch then row.attempted settings now (publishError row.eventId)
      else row)
    (by
      intro row
      split
      · unfold OutboxRow.attempted OutboxRow.eventId
        split <;> rfl
      · rfl)
  (if completed then outbox' else outbox, published)

theorem OutboxRow.attempted_envelope (settings : RelaySettings) (now : Nat)
    (publishError : Option String) (row : OutboxRow) :
    (row.attempted settings now publishError).envelope = row.envelope := by
  unfold OutboxRow.attempted
  split <;> rfl

/-- The loop comes to its end when every error in the batch can be recorded. -/
theorem publishAll_completed_iff {publishError : EventId → Option String}
    {batch : List OutboxRow} :
    (publishAll publishError batch).2 = true ↔
      ∀ row ∈ batch, ∀ error, publishError row.eventId = some error →
        recordable error = true := by
  induction batch with
  | nil => simp [publishAll]
  | cons row rest ih =>
      rw [publishAll, List.forall_mem_cons]
      cases hanswer : publishError row.eventId with
      | none => simp [ih]
      | some error =>
          cases hrecordable : recordable error with
          | true => simp [hrecordable, ih]
          | false => simp [hrecordable]

/-- What a completed round makes of a row. -/
def relayed (settings : RelaySettings) (now : Nat) (publishError : EventId → Option String)
    (batch : List OutboxRow) (row : OutboxRow) : OutboxRow :=
  if row ∈ batch then row.attempted settings now (publishError row.eventId) else row

section Round

variable {settings : RelaySettings} {now : Nat} {publishError : EventId → Option String}
  {outbox : Outbox}

theorem relayOnce_rows
    (h : (publishAll publishError (claimBatch settings now outbox)).2 = true) :
    (relayOnce settings now publishError outbox).1.rows =
      outbox.rows.map (relayed settings now publishError (claimBatch settings now outbox)) := by
  simp only [relayOnce, h, if_true]
  rfl

theorem relayOnce_rolledBack
    (h : (publishAll publishError (claimBatch settings now outbox)).2 = false) :
    (relayOnce settings now publishError outbox).1 = outbox := by
  simp only [relayOnce, h, Bool.false_eq_true, if_false]

/-- The relay never adds, drops or rewrites an event. -/
theorem relayOnce_envelopes (settings : RelaySettings) (now : Nat)
    (publishError : EventId → Option String) (outbox : Outbox) :
    (relayOnce settings now publishError outbox).1.rows.map OutboxRow.envelope =
      outbox.rows.map OutboxRow.envelope := by
  cases hcompleted : (publishAll publishError (claimBatch settings now outbox)).2 with
  | false => rw [relayOnce_rolledBack hcompleted]
  | true =>
      rw [relayOnce_rows hcompleted, List.map_map]
      apply List.map_congr_left
      intro row _
      simp only [Function.comp, relayed]
      split
      · exact OutboxRow.attempted_envelope settings now _ row
      · rfl

end Round

end CryptoWallet
