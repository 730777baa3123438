import CryptoWallet.MessageBus
import CryptoWallet.OutgoingCases
import CryptoWallet.WalletSystem

/-!
# From the outbox of one service to the database of the other

The outbox relay of the producing service, Redis, and the consumer of the other
service with its database, as one shared state which the processes of both services
act on with atomic commands: a Redis command, a database transaction, or a statement
which takes row locks.

The journal of the state is a history variable: it holds what Redis handed out, what
was dispatched and what was dead lettered, and nothing reads it.
-/

namespace CryptoWallet

open Tx

/-! ## A consuming service -/

/-- What a service makes of an event: the dispatcher runs in one transaction with its
dedupe table. -/
structure Service (δ : Type) where
  eventTypes : List EventType
  dispatch : Scope → Envelope → δ → Except Failure Unit × δ
  recorded : δ → EventId → Bool
  rolledBack : ∀ {scope envelope db e},
    (dispatch scope envelope db).1 = .error e → (dispatch scope envelope db).2 = db
  records : ∀ {scope envelope db},
    (dispatch scope envelope db).1 = .ok () →
      recorded (dispatch scope envelope db).2 envelope.eventId = true
  keeps : ∀ {scope envelope db id},
    recorded db id = true → recorded (dispatch scope envelope db).2 id = true
  nodup : (eventTypes.map EventType.streamFor).Nodup

/-- A transaction whose value is not used, run to its end. -/
def commitUnit {δ κ ε α : Type} (tx : Tx δ κ ε α) (db : δ) : Except ε Unit × δ :=
  ((commit tx db).1.map fun _ => (), (commit tx db).2)

section Commit

variable {δ κ ε α : Type} {tx : Tx δ κ ε α} {db : δ}

theorem commitUnit_error {e : ε} (h : (commitUnit tx db).1 = .error e) :
    (commitUnit tx db).2 = db := by
  unfold commitUnit at h ⊢
  cases hcommit : (commit tx db).1 with
  | ok a => simp [hcommit, Except.map] at h
  | error e' => exact commit_error (Prod.ext hcommit rfl)

theorem commitUnit_ok {post : α → δ → Prop} {raises : ε → Prop}
    (hensures : Ensures tx db post raises) (h : (commitUnit tx db).1 = .ok ()) :
    ∃ a, post a (commitUnit tx db).2 := by
  unfold commitUnit at h ⊢
  cases hcommit : (commit tx db).1 with
  | ok a => exact ⟨a, hensures.commit_ok (Prod.ext hcommit rfl)⟩
  | error e => simp [hcommit, Except.map] at h

end Commit

/-! ### The wallet service -/

/-- The databases the wallet service can reach. -/
abbrev Wallet.SoundDb := { db : Wallet.Db // Wallet.Sound db }

def Wallet.subscribedEvents : List EventType :=
  [.depositDetected, .depositConfirmed, .depositReorged, .txBroadcasted, .txConfirmed,
    .txFailed]

theorem Wallet.recorded_insert {db db' : Wallet.Db} {row : ProcessedEvent}
    {processedEvents : ProcessedEvents}
    (hinsert : db.processedEvents.insert? row = some processedEvents)
    (hdb' : db'.processedEvents = processedEvents)
    (hconsumer : row.consumer = Wallet.consumerName) (id : EventId) :
    db'.Recorded id ↔ db.Recorded id ∨ id = row.eventId := by
  unfold Wallet.Db.Recorded
  simp only [hdb', Table.find?_insert? hinsert, ProcessedEvent.primaryKey, hconsumer,
    Prod.mk.injEq, true_and]
  by_cases hid : id = row.eventId <;> simp [hid]

/-- The event is recorded, and no other. -/
theorem Wallet.dispatch_records {db : Wallet.Db} (h : Wallet.Sound db) (scope : Scope)
    (envelope : Envelope) :
    Ensures (Wallet.dispatch scope envelope) db
      (fun _ db' => ∀ id, db'.Recorded id ↔ db.Recorded id ∨ id = envelope.eventId)
      fun _ => True := by
  apply (Wallet.dispatch_ensures h scope envelope).mono ?_ (fun _ h => h)
  rintro _ db' (⟨rfl, hrecorded⟩ | ⟨processedEvents, hinsert, hhandled⟩) id
  · exact ⟨Or.inl, fun h => h.elim (fun h => h) fun hid => hid ▸ hrecorded⟩
  · exact Wallet.recorded_insert hinsert hhandled.processedEvents rfl id

def Wallet.service : Service Wallet.SoundDb where
  eventTypes := Wallet.subscribedEvents
  dispatch scope envelope db :=
    ((commitUnit (Wallet.dispatch scope envelope) db.val).1,
      ⟨(commitUnit (Wallet.dispatch scope envelope) db.val).2,
        commit_preserves db.property
          ((Wallet.dispatch_sound db.property scope envelope).mono (fun _ _ h => h)
            fun _ h => h)⟩)
  recorded db id := decide (db.val.Recorded id)
  rolledBack h := Subtype.ext (commitUnit_error h)
  records {scope envelope db} h := by
    obtain ⟨_, hrecords⟩ :=
      commitUnit_ok (Wallet.dispatch_records db.property scope envelope) h
    exact decide_eq_true ((hrecords _).mpr (Or.inr rfl))
  keeps {scope envelope db id} h := by
    apply decide_eq_true
    apply commit_preserves (I := fun db' : Wallet.Db => db'.Recorded id)
      (of_decide_eq_true h)
    exact (Wallet.dispatch_records db.property scope envelope).mono
      (fun _ _ hrecords => (hrecords id).mpr (Or.inl (of_decide_eq_true h))) (fun _ h => h)
  nodup := by decide

/-! ### The blockchain service -/

def Blockchain.subscribedEvents : List EventType := [.transferRequested]

def Blockchain.Db.Recorded (db : Blockchain.Db) (eventId : EventId) : Prop :=
  (db.processedEvents.find? (Blockchain.consumerName, eventId)).isSome = true

instance (db : Blockchain.Db) (eventId : EventId) : Decidable (db.Recorded eventId) :=
  inferInstanceAs (Decidable (_ = true))

theorem Blockchain.claimEvent_records (envelope : Envelope) (db : Blockchain.Db) :
    Ensures (Blockchain.claimEvent envelope) db
      (fun _ db' => ∀ id, db'.Recorded id ↔ db.Recorded id ∨ id = envelope.eventId)
      fun _ => True := by
  unfold Blockchain.claimEvent
  split
  · exact Ensures.throw trivial
  · apply Ensures.orRaise_bind
    · intro _ _
      apply Ensures.query_bind
      cases hinsert : db.processedEvents.insert? _ with
      | none =>
          have htaken := (db.processedEvents.insert?_eq_none_iff _).mp hinsert
          apply Ensures.pure
          exact fun id => ⟨Or.inl, fun h => h.elim (fun h => h) fun hid => hid ▸ htaken⟩
      | some processedEvents =>
          apply Ensures.modifyDb_bind
          apply Ensures.pure
          intro id
          unfold Blockchain.Db.Recorded
          simp only [Table.find?_insert? hinsert, ProcessedEvent.primaryKey, Prod.mk.injEq,
            true_and]
          by_cases hid : id = envelope.eventId <;> simp [hid]
    · exact fun _ _ => trivial

theorem Blockchain.Accepted.processedEvents {scope : Scope} {payload : Payload}
    {correlationId : String} {db db' : Blockchain.Db}
    (h : Blockchain.Accepted scope payload correlationId db db') :
    db'.processedEvents = db.processedEvents := by
  cases h with
  | duplicate _ _ _ => rfl
  | accepted _ _ _ _ _ => rfl
  | unknown _ _ _ _ _ _ _ _ hannounces =>
      obtain ⟨outbox, _, rfl⟩ := hannounces
      rfl

theorem Blockchain.dispatch_records (scope : Scope) (envelope : Envelope)
    (db : Blockchain.Db) :
    Ensures (Blockchain.dispatch scope envelope) db
      (fun _ db' => ∀ id, db'.Recorded id ↔ db.Recorded id ∨ id = envelope.eventId)
      fun _ => True := by
  unfold Blockchain.dispatch
  apply Ensures.bind (Blockchain.claimEvent_records envelope db)
  intro claimed db₁ hclaimed
  split
  · split
    · apply (Blockchain.acceptTransferRequest_ensures _ _ _ _).mono ?_ (fun _ _ => trivial)
      intro _ db' haccepted
      unfold Blockchain.Db.Recorded at hclaimed ⊢
      rw [haccepted.processedEvents]
      exact hclaimed
    · exact Ensures.pure hclaimed
  · exact Ensures.pure hclaimed

def Blockchain.service : Service Blockchain.Db where
  eventTypes := Blockchain.subscribedEvents
  dispatch scope envelope db := commitUnit (Blockchain.dispatch scope envelope) db
  recorded db id := decide (db.Recorded id)
  rolledBack := commitUnit_error
  records {scope envelope db} h := by
    obtain ⟨_, hrecords⟩ := commitUnit_ok (Blockchain.dispatch_records scope envelope db) h
    exact decide_eq_true ((hrecords _).mpr (Or.inr rfl))
  keeps {scope envelope db id} h := by
    apply decide_eq_true
    apply commit_preserves (I := fun db' : Blockchain.Db => db'.Recorded id)
      (of_decide_eq_true h)
    exact (Blockchain.dispatch_records scope envelope db).mono
      (fun _ _ hrecords => (hrecords id).mpr (Or.inl (of_decide_eq_true h))) (fun _ h => h)
  nodup := by decide

/-! ## Dead letters -/

/-- A text inside a JSONB column. -/
def jsonText (text : String) : Except Failure Unit :=
  if '\x00' ∈ text.toList then .error .dataError else .ok ()

def jsonValue : Json → Except Failure Unit
  | .str text => jsonText text
  | .other value => if value.nul then .error .dataError else .ok ()
  | _ => .ok ()

def jsonPayload : Payload → Except Failure Unit
  | [] => .ok ()
  | (key, value) :: rest => do
    jsonText key
    jsonValue value
    jsonPayload rest

/-- `record_dead_letter`: the insertion into the table of dead letters. -/
def recordDeadLetter (item : DeadLetter) : Except Failure Unit :=
  let envelope := item.delivered.envelope
  match envelope.eventId with
  | .malformed _ => .error .valueError
  | _ => do
    let _ ← varchar 64 envelope.eventType.name
    jsonText envelope.producer
    jsonText envelope.correlationId
    jsonPayload envelope.payload
    jsonPayload envelope.extra
    match item.error with
    | some (.connection message) => jsonText message
    | _ => .ok ()

/-! ## The shared state and its commands -/

inductive Happening where
  | handedOut (stream : String) (id : Nat) (fields : Wire)
  | dispatched (delivered : DeliveredEvent) (result : Except BusError Unit)
  /-- `recorded`: the event is in the dedupe table at this moment. -/
  | deadLettered (item : DeadLetter) (recorded : Bool)
  deriving DecidableEq

structure Pipeline (δ : Type) where
  clock : Nat
  outbox : Outbox
  /-- The rows of the outbox which a replica of the relay has locked. -/
  locked : List (Nat × EventId)
  streams : String → StreamGroup Wire
  dlq : List DeadLetter
  deadLetters : List DeadLetter
  db : δ
  journal : List Happening

inductive PipelineCommand where
  | claimRows (replica limit : Nat)
  | publish (stream : String) (fields : Wire) (maxLen : Nat)
  | markRows (replica : Nat) (attempts : List (EventId × Option String))
  | xpendingRange (stream : String) (count idle : Nat)
  | xclaim (stream consumer : String) (minIdle : Nat) (ids : List Nat)
  | xreadgroup (consumer : String) (streams : List String) (count : Nat)
  | xack (stream : String) (id : Nat)
  | xaddDeadLetter (item : DeadLetter)
  | dispatch (delivered : DeliveredEvent)
  | recordDeadLetter (item : DeadLetter)

abbrev PipelineCommand.Answer : PipelineCommand → Type
  | claimRows _ _ => List OutboxRow
  | xpendingRange _ _ _ => List (Nat × Nat)
  | xclaim _ _ _ _ => List (Nat × Option Wire)
  | xreadgroup _ _ _ => List (String × List (Nat × Wire))
  | publish _ _ _ | markRows _ _ | xack _ _ | xaddDeadLetter _ | dispatch _
  | recordDeadLetter _ => Unit

/-- What the environment decides about a command: the time since the last one, how many
entries beyond the limit are evicted, the ambient values, and whether the handler
raises for a reason of its own. -/
structure Turn where
  elapsed : Nat
  evicted : Nat
  scope : Scope
  raises : Option Failure
  deriving DecidableEq

namespace Pipeline

variable {δ : Type} (service : Service δ) (relay : RelaySettings)

def setStream (w : Pipeline δ) (stream : String) (group : StreamGroup Wire) : Pipeline δ :=
  { w with streams := Function.update w.streams stream group }

def noted (w : Pipeline δ) (happenings : List Happening) : Pipeline δ :=
  { w with journal := w.journal ++ happenings }

/-- `SELECT ... FOR UPDATE SKIP LOCKED`. -/
def claimRows (now replica limit : Nat) (w : Pipeline δ) : List OutboxRow × Pipeline δ :=
  let rows := (w.outbox.select fun row =>
    row.due now && !(w.locked.map Prod.snd).contains row.eventId).take limit
  (rows, { w with locked := w.locked ++ rows.map fun row => (replica, row.eventId) })

/-- The updates of the claimed rows, committed; the locks are gone. -/
def markRows (now replica : Nat) (attempts : List (EventId × Option String))
    (w : Pipeline δ) : Pipeline δ :=
  { w with
    outbox := w.outbox.mapRows
      (fun row =>
        match attempts.lookup row.eventId with
        | some publishError => row.attempted relay now publishError
        | none => row)
      (by
        intro row
        split
        · unfold OutboxRow.eventId
          rw [OutboxRow.attempted_envelope]
        · rfl)
    locked := w.locked.filter (·.1 ≠ replica) }

def readGroups (consumer : String) (now count : Nat) :
    List String → Pipeline δ → List (String × List (Nat × Wire)) × Pipeline δ
  | [], w => ([], w)
  | stream :: rest, w =>
    let (group, messages) := (w.streams stream).read consumer now count
    let w := (w.setStream stream group).noted
      (messages.map fun message => .handedOut stream message.1 message.2)
    let (answers, w) := readGroups consumer now count rest w
    ((stream, messages) :: answers, w)

def claimGroup (stream consumer : String) (now minIdle : Nat) (ids : List Nat)
    (w : Pipeline δ) : List (Nat × Option Wire) × Pipeline δ :=
  let (group, messages) := (w.streams stream).claim consumer now minIdle ids
  (messages.map fun message => (message.1, some message.2),
    (w.setStream stream group).noted
      (messages.map fun message => .handedOut stream message.1 message.2))

def dispatched (scope : Scope) (raises : Option Failure) (delivered : DeliveredEvent)
    (w : Pipeline δ) : Except BusError Unit × Pipeline δ :=
  match raises with
  | some failure =>
    (.error (.handler failure), w.noted [.dispatched delivered (.error (.handler failure))])
  | none =>
    let (result, db) := service.dispatch scope delivered.envelope w.db
    let result := result.mapError BusError.handler
    (result, { w.noted [.dispatched delivered result] with db })

def recordedDeadLetter (item : DeadLetter) (w : Pipeline δ) :
    Except BusError Unit × Pipeline δ :=
  match recordDeadLetter item with
  | .ok () => (.ok (), { w with deadLetters := w.deadLetters ++ [item] })
  | .error failure => (.error (.handler failure), w)

def carryOut (turn : Turn) (command : PipelineCommand) (w : Pipeline δ) :
    Except BusError command.Answer × Pipeline δ :=
  match command with
  | .claimRows replica limit =>
    let (rows, w) := w.claimRows turn.scope.now replica limit
    (.ok rows, w)
  | .publish stream fields maxLen =>
    (.ok (), w.setStream stream ((w.streams stream).add maxLen turn.evicted fields))
  | .markRows replica attempts =>
    (.ok (), w.markRows relay turn.scope.now replica attempts)
  | .xpendingRange stream count idle =>
    (.ok ((w.streams stream).idlePending w.clock idle count), w)
  | .xclaim stream consumer minIdle ids =>
    let (claimed, w) := w.claimGroup stream consumer w.clock minIdle ids
    (.ok claimed, w)
  | .xreadgroup consumer streams count =>
    let (answers, w) := readGroups consumer w.clock count streams w
    (.ok (answers.filter fun answer => answer.2 ≠ []), w)
  | .xack stream id => (.ok (), w.setStream stream ((w.streams stream).ack id))
  | .xaddDeadLetter item =>
    (.ok (), { w.noted [.deadLettered item
      (service.recorded w.db item.delivered.envelope.eventId)] with
        dlq := w.dlq ++ [item] })
  | .dispatch delivered => w.dispatched service turn.scope turn.raises delivered
  | .recordDeadLetter item => w.recordedDeadLetter item

/-- Redis and the databases, when they answer. -/
def machine : Machine PipelineCommand.Answer Turn BusError (Pipeline δ) where
  perform turn command w :=
    carryOut service relay turn command { w with clock := w.clock + turn.elapsed }

end Pipeline

/-! ## The processes -/

def send (command : PipelineCommand) :
    Program PipelineCommand.Answer BusError command.Answer := .perform command

def redisClient : RedisClient PipelineCommand.Answer where
  xadd stream fields maxLen := send (.publish stream fields maxLen)
  xaddDeadLetter item := send (.xaddDeadLetter item)
  xreadgroup consumer streams count := send (.xreadgroup consumer streams count)
  xpendingRange stream count idle := send (.xpendingRange stream count idle)
  xclaim stream consumer minIdle ids := send (.xclaim stream consumer minIdle ids)
  xack stream id := send (.xack stream id)

structure ConsumerSettings where
  maxDelivery : Nat
  claimIdleMs : Nat
  batch : Nat

/-- The consumer of a service over Redis Streams. -/
def consumerRuntime (settings : ConsumerSettings) (eventTypes : List EventType)
    (consumer : String) : ConsumerRuntime PipelineCommand.Answer where
  bus := RedisStreamsBus.bus redisClient
  consumer
  eventTypes
  dispatch delivered := send (.dispatch delivered)
  onDeadLetter := some fun item => send (.recordDeadLetter item)
  maxDelivery := settings.maxDelivery
  claimIdleMs := settings.claimIdleMs
  batch := settings.batch

/-- The error of an attempt as `last_error` stores it: the UPDATE raises for a NUL. -/
def publishFailed (error : BusError) : Except BusError (Option String) :=
  if recordable error.message then .ok (some error.message) else .error (.handler .dataError)

/-- The loop of the relay over the claimed rows: what the bus raised for each. -/
def publishRows (maxLen : Nat) :
    List OutboxRow →
      Program PipelineCommand.Answer BusError (List (EventId × Option String))
  | [] => pure []
  | row :: rest => do
    let publishError ← Program.tryCatch
      (do
        RedisStreamsBus.publish redisClient maxLen row.envelope
        return none)
      fun error => .ofExcept (publishFailed error)
    let attempts ← publishRows maxLen rest
    return (row.eventId, publishError) :: attempts

/-- `OutboxRelay.run_once`: the number of published events. -/
def relayRunOnce (settings : RelaySettings) (maxLen replica : Nat) :
    Program PipelineCommand.Answer BusError Nat := do
  let rows ← send (.claimRows replica settings.batchSize)
  if rows = [] then return 0
  else
    let attempts ← publishRows maxLen rows
    send (.markRows replica attempts)
    return (attempts.filter (·.2.isNone)).length

end CryptoWallet
