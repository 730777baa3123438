import CryptoWallet.Events
import CryptoWallet.Programs
import CryptoWallet.StreamGroup

/-!
# The message bus and its consumers

There is one stream for each event type.  A consumer claims deliveries which were
abandoned, reads new ones, and handles them one after another: a delivery is
acknowledged when its dispatch returns, left for later when it raises, and dead
lettered when it has been delivered too often.

The buses and the runtime are programs over the clients they are given: the commands
of Redis, the dispatcher of a service, the table of its dead letters.  Every stream
has one consumer group, so the group is not an argument.
-/

namespace CryptoWallet

def EventType.streamFor (eventType : EventType) : String :=
  "mcw:events:" ++ eventType.name

/-- The fields of a stream entry: a body which is an envelope, or one which is not. -/
inductive Wire where
  | body (envelope : Envelope)
  | other (text : String)
  deriving DecidableEq

inductive BusError where
  | connection (message : String)
  | undecodable
  | handler (failure : Failure)
  deriving DecidableEq

/-- The text of the exception, where it is stored. -/
def BusError.message : BusError → String
  | connection message => message
  | undecodable | handler _ => ""

def Envelope.toWire (envelope : Envelope) : Wire := .body envelope

def Envelope.fromWire : Wire → Except BusError Envelope
  | .body envelope => .ok envelope
  | .other _ => .error .undecodable

def Wire.envelope? : Wire → Option Envelope
  | .body envelope => some envelope
  | .other _ => none

structure DeliveredEvent where
  stream : String
  messageId : Nat
  envelope : Envelope
  deliveryCount : Nat
  deriving DecidableEq

/-- Envelope and delivery count are those of the delivery; the error is none when the
delivery count was exceeded. -/
structure DeadLetter where
  delivered : DeliveredEvent
  error : Option BusError
  deriving DecidableEq

theorem mem_of_mapM_ok {ε α β : Type} {f : α → Except ε β} {xs : List α} {ys : List β}
    (h : xs.mapM f = .ok ys) {y : β} (hy : y ∈ ys) : ∃ x ∈ xs, f x = .ok y := by
  induction xs generalizing ys with
  | nil =>
      cases h
      cases hy
  | cons x rest ih =>
      rw [List.mapM_cons] at h
      obtain ⟨first, hfirst, h⟩ := bind_eq_ok.mp h
      obtain ⟨others, hothers, h⟩ := bind_eq_ok.mp h
      cases h
      rcases List.mem_cons.mp hy with rfl | hmem
      · exact ⟨x, List.mem_cons_self, hfirst⟩
      · obtain ⟨x', hx', hfx'⟩ := ih hothers hmem
        exact ⟨x', List.mem_cons_of_mem x hx', hfx'⟩

section

variable {γ : Type} (ρ : γ → Type)

structure EventBus where
  readNew (eventTypes : List EventType) (consumer : String) (count : Nat) :
    Program ρ BusError (List DeliveredEvent)
  claimStale (eventTypes : List EventType) (consumer : String) (minIdleMs count : Nat) :
    Program ρ BusError (List DeliveredEvent × List DeliveredEvent)
  ack (stream : String) (messageId : Nat) : Program ρ BusError Unit
  deadLetter (item : DeadLetter) : Program ρ BusError Unit

/-- The dispatcher reads the envelope of the delivery only. -/
structure ConsumerRuntime where
  bus : EventBus ρ
  consumer : String
  eventTypes : List EventType
  dispatch : DeliveredEvent → Program ρ BusError Unit
  onDeadLetter : Option (DeadLetter → Program ρ BusError Unit)
  maxDelivery : Nat
  claimIdleMs : Nat
  batch : Nat

end

variable {γ : Type} {ρ : γ → Type}

/-! ## The runtime -/

namespace ConsumerRuntime

variable (runtime : ConsumerRuntime ρ)

def reject (delivered : DeliveredEvent) (error : Option BusError) :
    Program ρ BusError Unit := do
  let item := ⟨delivered, error⟩
  runtime.bus.deadLetter item
  match runtime.onDeadLetter with
  | some record => record item
  | none => pure ()
  runtime.bus.ack delivered.stream delivered.messageId

def handle (delivered : DeliveredEvent) : Program ρ BusError Unit :=
  if runtime.maxDelivery < delivered.deliveryCount then runtime.reject delivered none
  else
    Program.tryCatch
      (do
        runtime.dispatch delivered
        runtime.bus.ack delivered.stream delivered.messageId)
      fun error =>
        if runtime.maxDelivery ≤ delivered.deliveryCount then
          runtime.reject delivered (some error)
        -- not acknowledged: delivered again once it is idle for long enough
        else pure ()

def handleAll : List DeliveredEvent → Program ρ BusError Nat
  | [] => pure 0
  | delivered :: rest => do
    runtime.handle delivered
    let handled ← handleAll rest
    return handled + 1

/-- The deliveries of one batch. -/
def collect : Program ρ BusError (List DeliveredEvent) := do
  let (stale, _) ← runtime.bus.claimStale runtime.eventTypes runtime.consumer
    runtime.claimIdleMs runtime.batch
  let fresh ← runtime.bus.readNew runtime.eventTypes runtime.consumer runtime.batch
  return stale ++ fresh

def runOnce : Program ρ BusError Nat := do
  let batch ← runtime.collect
  runtime.handleAll batch

end ConsumerRuntime

/-! ## Redis Streams -/

/-- The commands the bus sends.  `xclaim` answers no fields for an entry which was
trimmed away. -/
structure RedisClient (ρ : γ → Type) where
  xadd (stream : String) (fields : Wire) (maxLen : Nat) : Program ρ BusError Unit
  xaddDeadLetter (item : DeadLetter) : Program ρ BusError Unit
  xreadgroup (consumer : String) (streams : List String) (count : Nat) :
    Program ρ BusError (List (String × List (Nat × Wire)))
  xpendingRange (stream : String) (count idle : Nat) : Program ρ BusError (List (Nat × Nat))
  xclaim (stream consumer : String) (minIdle : Nat) (ids : List Nat) :
    Program ρ BusError (List (Nat × Option Wire))
  xack (stream : String) (id : Nat) : Program ρ BusError Unit

namespace RedisStreamsBus

variable (redis : RedisClient ρ)

def publish (maxLen : Nat) (envelope : Envelope) : Program ρ BusError Unit :=
  redis.xadd envelope.eventType.streamFor envelope.toWire maxLen

def deliveredEvent (stream : String) (id : Nat) (fields : Wire) (count : Nat) :
    Except BusError DeliveredEvent := do
  let envelope ← Envelope.fromWire fields
  return ⟨stream, id, envelope, count⟩

/-- The messages of one stream, each delivered for the first time. -/
def firstDeliveries (stream : String) (messages : List (Nat × Wire)) :
    Except BusError (List DeliveredEvent) :=
  messages.mapM fun message => deliveredEvent stream message.1 message.2 1

def readNew (eventTypes : List EventType) (consumer : String) (count : Nat) :
    Program ρ BusError (List DeliveredEvent) := do
  if eventTypes = [] then return []
  else
    let response ← redis.xreadgroup consumer (eventTypes.map EventType.streamFor) count
    let events ← Program.ofExcept
      (response.mapM fun answer => firstDeliveries answer.1 answer.2)
    return events.flatten

/-- `counts` is what `XPENDING` answered before the claim. -/
def retryable (stream : String) (counts : List (Nat × Nat)) :
    List (Nat × Option Wire) → Program ρ BusError (List DeliveredEvent)
  | [] => pure []
  | (id, none) :: rest => do
    redis.xack stream id
    retryable stream counts rest
  | (id, some fields) :: rest => do
    let event ← Program.ofExcept
      (deliveredEvent stream id fields ((counts.lookup id).getD 1))
    let events ← retryable stream counts rest
    return event :: events

def claimStream (consumer : String) (minIdleMs count : Nat) (stream : String) :
    Program ρ BusError (List DeliveredEvent) := do
  let pending ← redis.xpendingRange stream count minIdleMs
  if pending = [] then return []
  else
    let claimed ← redis.xclaim stream consumer minIdleMs (pending.map Prod.fst)
    retryable redis stream pending claimed

def claimStreams (consumer : String) (minIdleMs count : Nat) :
    List EventType → Program ρ BusError (List DeliveredEvent)
  | [] => pure []
  | eventType :: rest => do
    let events ← claimStream redis consumer minIdleMs count eventType.streamFor
    let others ← claimStreams consumer minIdleMs count rest
    return events ++ others

def bus : EventBus ρ where
  readNew := readNew redis
  claimStale eventTypes consumer minIdleMs count := do
    let events ← claimStreams redis consumer minIdleMs count eventTypes
    return (events, [])
  ack := redis.xack
  deadLetter := redis.xaddDeadLetter

end RedisStreamsBus

/-! ## The bus of the unit tests -/

/-- Streams, cursors and pending deliveries of `InMemoryBus`, which evicts nothing. -/
structure InMemoryBus where
  streams : String → StreamGroup Envelope
  deadLetters : List DeadLetter

namespace InMemoryBus

def publish (envelope : Envelope) (bus : InMemoryBus) : InMemoryBus :=
  { bus with
    streams := Function.update bus.streams envelope.eventType.streamFor
      ((bus.streams envelope.eventType.streamFor).add 0 0 envelope) }

def readStream (consumer : String) (now count : Nat) (stream : String)
    (bus : InMemoryBus) : List DeliveredEvent × InMemoryBus :=
  let (group, messages) := (bus.streams stream).read consumer now count
  (messages.map fun message => ⟨stream, message.1, message.2, 1⟩,
    { bus with streams := Function.update bus.streams stream group })

def readNew (consumer : String) (now count : Nat) :
    List EventType → InMemoryBus → List DeliveredEvent × InMemoryBus
  | [], bus => ([], bus)
  | eventType :: rest, bus =>
    let (events, bus) := readStream consumer now count eventType.streamFor bus
    let (others, bus) := readNew consumer now count rest bus
    (events ++ others, bus)

/-- The loop over one stream ends once `count` deliveries are collected, but not
before the first one it finds. -/
def claimStream (consumer : String) (now minIdleMs count : Nat) (stream : String)
    (bus : InMemoryBus) : List DeliveredEvent × InMemoryBus :=
  let pending := (bus.streams stream).idlePending now minIdleMs (max 1 count)
  let (group, messages) := (bus.streams stream).claim consumer now minIdleMs
    (pending.map Prod.fst)
  (messages.map fun message =>
      ⟨stream, message.1, message.2, (pending.lookup message.1).getD 0 + 1⟩,
    { bus with streams := Function.update bus.streams stream group })

def claimStreams (consumer : String) (now minIdleMs count : Nat) :
    List EventType → InMemoryBus → List DeliveredEvent × InMemoryBus
  | [], bus => ([], bus)
  | eventType :: rest, bus =>
    let (events, bus) := claimStream consumer now minIdleMs count eventType.streamFor bus
    let (others, bus) := claimStreams consumer now minIdleMs (count - events.length) rest bus
    (events ++ others, bus)

def ack (stream : String) (messageId : Nat) (bus : InMemoryBus) : InMemoryBus :=
  { bus with
    streams := Function.update bus.streams stream ((bus.streams stream).ack messageId) }

def deadLetter (item : DeadLetter) (bus : InMemoryBus) : InMemoryBus :=
  { bus with deadLetters := bus.deadLetters ++ [item] }

end InMemoryBus
end CryptoWallet
