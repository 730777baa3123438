import CryptoWallet.BusBudgets

/-!
# Do the two buses give the same retry budget?

A schedule is a sequence of polls by any consumers, at any times, with other entries
appended in between.  A message whose handler always raises is attempted as often as
the budget of its bus says, and given up with the last attempt.  The budget of the
bus of the unit tests is the limit; over Redis it is one more, unless the limit is one.
-/

namespace CryptoWallet

open Program

/-! ## Schedules -/

section Schedules

variable {γ : Type} {ρ : γ → Type} {ω ν σ : Type}

/-- An entry is appended, or a consumer polls, with one turn for each of its commands. -/
inductive BusStep (ν ω : Type) where
  | add (entry : ν)
  | poll (consumer : String) (turns : List ω)

/-- A bus with its world and the consumers on it. -/
structure BusWorld (ρ : γ → Type) (ω ν σ : Type) where
  machine : Machine ρ ω BusError σ
  runtime : String → ConsumerRuntime ρ
  add : ν → σ → σ

namespace BusWorld

variable (bus : BusWorld ρ ω ν σ)

def step : BusStep ν ω → σ → σ
  | .add entry, s => bus.add entry s
  | .poll consumer turns, s => ((bus.runtime consumer).runOnce.execute bus.machine turns s).state

/-- The poll runs to its end and raises nothing. -/
def Returns (s : σ) : BusStep ν ω → Prop
  | .add _ => True
  | .poll consumer turns =>
    (((bus.runtime consumer).runOnce.execute bus.machine turns s).result.any
      fun result => result.isOk) = true

instance (s : σ) (step : BusStep ν ω) : Decidable (bus.Returns s step) :=
  match step with
  | .add _ => .isTrue trivial
  | .poll _ _ => inferInstanceAs (Decidable (_ = true))

/-- Every consumer sees the message through the same tally, and other entries do not
matter. -/
structure Shows (policy : RetryPolicy) (stream : String) (id : Nat) (tally : σ → Tally) where
  watched : ∀ consumer, Watched bus.machine (bus.runtime consumer) policy stream id
  limit : ∀ consumer, (bus.runtime consumer).maxDelivery = policy.limit
  same : ∀ consumer, (watched consumer).tally = tally
  add : ∀ entry s, tally (bus.add entry s) = tally s

variable {bus} {policy : RetryPolicy} {stream : String} {id : Nat} {tally : σ → Tally}

theorem Shows.step (h : bus.Shows policy stream id tally) {s : σ} {step : BusStep ν ω}
    (hresting : Resting policy (tally s)) (hreturns : bus.Returns s step) :
    Resting policy (tally (bus.step step s)) := by
  cases step with
  | add entry =>
      rw [BusWorld.step, h.add]
      exact hresting
  | poll consumer turns =>
      rw [← h.same consumer] at hresting ⊢
      have hleads :=
        ((h.watched consumer).runOnce_leads (h.limit consumer) hresting).execute turns
      simp only [BusWorld.Returns] at hreturns
      simp only [BusWorld.step]
      cases hresult : ((bus.runtime consumer).runOnce.execute bus.machine turns s).result with
      | none =>
          rw [hresult] at hreturns
          cases hreturns
      | some result =>
          rw [hresult] at hreturns hleads
          cases result with
          | error e => cases hreturns
          | ok n => exact hleads n rfl

/-- Between the polls of every schedule the tally is at rest. -/
theorem Shows.resting (h : bus.Shows policy stream id tally) {s : σ}
    (hresting : Resting policy (tally s)) {steps : List (BusStep ν ω)}
    (hreturns : AdmittedRun bus.step bus.Returns s steps) :
    Resting policy (tally (runSteps bus.step s steps)) :=
  AdmittedRun.invariant (I := fun s => Resting policy (tally s))
    (fun _ _ hresting hreturns => h.step hresting hreturns) hresting hreturns

end BusWorld

end Schedules

/-! ## The bus of the unit tests -/

inductive InMemoryCommand where
  | readNew (eventTypes : List EventType) (consumer : String) (count : Nat)
  | claimStale (eventTypes : List EventType) (consumer : String) (minIdleMs count : Nat)
  | ack (stream : String) (id : Nat)
  | deadLetter (item : DeadLetter)
  | dispatch (delivered : DeliveredEvent)

abbrev InMemoryCommand.Answer : InMemoryCommand → Type
  | readNew _ _ _ => List DeliveredEvent
  | claimStale _ _ _ _ => List DeliveredEvent × List DeliveredEvent
  | ack _ _ | deadLetter _ | dispatch _ => Unit

/-- The time since the last command, and what the handler does. -/
structure InMemoryTurn where
  elapsed : Nat
  outcome : Except BusError Unit

/-- The bus, and the calls of the handler in order. -/
structure InMemoryWorld where
  clock : Nat
  bus : InMemoryBus
  calls : List (DeliveredEvent × Except BusError Unit)

namespace InMemoryWorld

def empty : InMemoryWorld := ⟨0, ⟨fun _ => .empty, []⟩, []⟩

def carryOut (outcome : Except BusError Unit) (command : InMemoryCommand)
    (w : InMemoryWorld) : Except BusError command.Answer × InMemoryWorld :=
  match command with
  | .readNew eventTypes consumer count =>
    let (events, bus) := InMemoryBus.readNew consumer w.clock count eventTypes w.bus
    (.ok events, { w with bus })
  | .claimStale eventTypes consumer minIdleMs count =>
    let (events, bus) :=
      InMemoryBus.claimStreams consumer w.clock minIdleMs count eventTypes w.bus
    (.ok (events, []), { w with bus })
  | .ack stream id => (.ok (), { w with bus := w.bus.ack stream id })
  | .deadLetter item => (.ok (), { w with bus := w.bus.deadLetter item })
  | .dispatch delivered => (outcome, { w with calls := w.calls ++ [(delivered, outcome)] })

def machine : Machine InMemoryCommand.Answer InMemoryTurn BusError InMemoryWorld where
  perform turn command w :=
    carryOut turn.outcome command { w with clock := w.clock + turn.elapsed }

def ask (command : InMemoryCommand) :
    Program InMemoryCommand.Answer BusError command.Answer := .perform command

def client : EventBus InMemoryCommand.Answer where
  readNew eventTypes consumer count := ask (.readNew eventTypes consumer count)
  claimStale eventTypes consumer minIdleMs count :=
    ask (.claimStale eventTypes consumer minIdleMs count)
  ack stream id := ask (.ack stream id)
  deadLetter item := ask (.deadLetter item)

def runtime (settings : ConsumerSettings) (eventTypes : List EventType) (consumer : String) :
    ConsumerRuntime InMemoryCommand.Answer where
  bus := client
  consumer
  eventTypes
  dispatch delivered := ask (.dispatch delivered)
  onDeadLetter := none
  maxDelivery := settings.maxDelivery
  claimIdleMs := settings.claimIdleMs
  batch := settings.batch

def tally (stream : String) (id : Nat) (w : InMemoryWorld) : Tally where
  stage := (w.bus.streams stream).stage id
  attempts := w.calls.countP (·.1.isOf stream id)
  givenUp := w.bus.deadLetters.countP (·.delivered.isOf stream id)
  succeeded := w.calls.any fun call => call.1.isOf stream id && call.2.isOk

section Commands

variable {stream : String} {id : Nat} {w : InMemoryWorld} {consumer : String}

theorem leads_ask (command : InMemoryCommand)
    {post : Except BusError command.Answer → InMemoryWorld → Prop}
    (h : ∀ outcome clock, post (carryOut outcome command { w with clock }).1
      (carryOut outcome command { w with clock }).2) :
    (ask command).Leads machine post w :=
  Ensures.perform trivial fun turn => h turn.outcome (w.clock + turn.elapsed)

theorem dispatch_leads (d : DeliveredEvent) (w : InMemoryWorld) :
    (ask (.dispatch d)).Leads machine
      (fun result w' => w'.tally stream id =
        if d.isOf stream id then (w.tally stream id).attempted result.isOk
        else w.tally stream id) w := by
  apply leads_ask (.dispatch d)
  intro outcome clock
  cases hof : d.isOf stream id with
  | false => simp [carryOut, tally, hof]
  | true => simp [carryOut, tally, hof, Tally.attempted]

theorem deadLetter_leads (item : DeadLetter) (w : InMemoryWorld) :
    (ask (.deadLetter item)).Leads machine
      (fun _ w' => w'.tally stream id =
        if item.delivered.isOf stream id then (w.tally stream id).dropped
        else w.tally stream id) w := by
  apply leads_ask (.deadLetter item)
  intro outcome clock
  cases hof : item.delivered.isOf stream id with
  | false => simp [carryOut, tally, InMemoryBus.deadLetter, hof]
  | true => simp [carryOut, tally, InMemoryBus.deadLetter, hof, Tally.dropped]

theorem tally_setStream (stream : String) (id : Nat) (w : InMemoryWorld) (stream' : String)
    (group : StreamGroup Envelope) :
    ({ w with bus := { w.bus with
      streams := Function.update w.bus.streams stream' group } } : InMemoryWorld).tally
        stream id =
      if stream' = stream then (w.tally stream id).atStage (group.stage id)
      else w.tally stream id := by
  by_cases hsame : stream' = stream
  · rw [if_pos hsame]
    simp [tally, Tally.atStage, hsame]
  · rw [if_neg hsame]
    have hother : Function.update w.bus.streams stream' group stream =
        w.bus.streams stream := Function.update_of_ne (fun h => hsame h.symm) _ _
    simp [tally, hother]

theorem ack_leads (d : DeliveredEvent) (w : InMemoryWorld) :
    (ask (.ack d.stream d.messageId)).Leads machine
      (fun _ w' => w'.tally stream id =
        if d.isOf stream id then (w.tally stream id).acked else w.tally stream id) w := by
  apply leads_ask (.ack d.stream d.messageId)
  intro outcome clock
  refine (tally_setStream stream id { w with clock } d.stream
    ((w.bus.streams d.stream).ack d.messageId)).trans ?_
  by_cases hstream : d.stream = stream
  · rw [if_pos hstream, hstream]
    have hacked := @acked_of_ack _ (w.tally stream id) (w.bus.streams stream) id rfl d.messageId
    refine hacked.trans ?_
    simp only [DeliveredEvent.isOf_iff, hstream, true_and]
  · rw [if_neg hstream, if_neg fun hof => hstream (DeliveredEvent.isOf_iff.mp hof).1]
    rfl

theorem delivers_map {stream' : String} {number : Nat → Nat}
    (messages : List (Nat × Envelope)) :
    Delivers stream' number messages (messages.map fun message =>
      ⟨stream', message.1, message.2, number message.1⟩) := by
  induction messages with
  | nil => exact .nil
  | cons message rest ih => exact .cons ⟨rfl, rfl, rfl⟩ ih

theorem readNew_out (consumer stream : String) (id : Nat) {limit : Nat}
    (hlimit : 1 ≤ limit) (now count : Nat) {eventTypes : List EventType}
    (hnodup : (eventTypes.map EventType.streamFor).Nodup)
    (w : InMemoryWorld) :
    let result := InMemoryBus.readNew consumer now count eventTypes w.bus
    Across (ReadsOut (.counting limit hlimit)) stream (eventTypes.map EventType.streamFor)
      (w.tally stream id) (result.1.filter (·.isOf stream id))
      (tally stream id { w with bus := result.2 }) := by
  induction eventTypes generalizing w with
  | nil => exact ⟨.nothing, fun _ => ⟨rfl, rfl⟩⟩
  | cons eventType rest ih =>
      rw [List.map_cons, List.nodup_cons] at hnodup
      let group := w.bus.streams eventType.streamFor
      let events := (group.read consumer now count).2.map fun message =>
        (⟨eventType.streamFor, message.1, message.2, 1⟩ : DeliveredEvent)
      let w₁ : InMemoryWorld := { w with bus := { w.bus with
        streams := Function.update w.bus.streams eventType.streamFor
          (group.read consumer now count).1 } }
      have hrest := ih hnodup.2 w₁
      have hdelivers : Delivers eventType.streamFor (fun _ => 1)
          (group.read consumer now count).2 events := delivers_map _
      have hfirst : if eventType.streamFor = stream then
          ReadsOut (.counting limit hlimit) (w.tally stream id)
            (events.filter (·.isOf stream id)) (w₁.tally stream id)
          else events.filter (·.isOf stream id) = [] ∧
            w₁.tally stream id = w.tally stream id := by
        have htally := tally_setStream stream id w eventType.streamFor
          (group.read consumer now count).1
        split
        case isTrue hsame =>
          rw [if_pos hsame] at htally
          rw [htally]
          rw [hsame] at hdelivers
          exact hdelivers.reads (by rw [← hsame]; rfl) rfl
        case isFalse hother =>
          rw [if_neg hother] at htally
          exact ⟨hdelivers.other hother id, htally⟩
      have hcons := hrest.cons hnodup.1 hfirst
      rw [← List.filter_append] at hcons
      exact hcons

theorem claimStreams_out (consumer stream : String) (id : Nat) {limit : Nat}
    (hlimit : 1 ≤ limit) (now minIdleMs count : Nat)
    {eventTypes : List EventType} (hnodup : (eventTypes.map EventType.streamFor).Nodup)
    (w : InMemoryWorld) :
    let result := InMemoryBus.claimStreams consumer now minIdleMs count eventTypes w.bus
    Across (ClaimsOut (.counting limit hlimit)) stream (eventTypes.map EventType.streamFor)
      (w.tally stream id) (result.1.filter (·.isOf stream id))
      (tally stream id { w with bus := result.2 }) := by
  induction eventTypes generalizing w count with
  | nil => exact ⟨.nothing, fun _ => ⟨rfl, rfl⟩⟩
  | cons eventType rest ih =>
      rw [List.map_cons, List.nodup_cons] at hnodup
      let group := w.bus.streams eventType.streamFor
      let pending := group.idlePending now minIdleMs (max 1 count)
      let claimed := group.claim consumer now minIdleMs (pending.map Prod.fst)
      let number := fun id => (pending.lookup id).getD 0 + 1
      let events := claimed.2.map fun message =>
        (⟨eventType.streamFor, message.1, message.2, number message.1⟩ : DeliveredEvent)
      let w₁ : InMemoryWorld := { w with bus := { w.bus with
        streams := Function.update w.bus.streams eventType.streamFor claimed.1 } }
      have hrest := ih (count - events.length) hnodup.2 w₁
      have hdelivers : Delivers eventType.streamFor number claimed.2 events := delivers_map _
      have hfirst : if eventType.streamFor = stream then
          ClaimsOut (.counting limit hlimit) (w.tally stream id)
            (events.filter (·.isOf stream id)) (w₁.tally stream id)
          else events.filter (·.isOf stream id) = [] ∧
            w₁.tally stream id = w.tally stream id := by
        have htally := tally_setStream stream id w eventType.streamFor
          claimed.1
        split
        case isTrue hsame =>
          rw [if_pos hsame] at htally
          rw [htally]
          rw [hsame] at hdelivers
          apply hdelivers.claims (group.idlePending_nodup now minIdleMs (max 1 count))
          · rw [← hsame]
            rfl
          · intro k hstage hmem
            have hlookup : pending.lookup id = some k := group.idlePending_lookup hstage hmem
            simp only [number, hlookup, Option.getD_some]
            rfl
        case isFalse hother =>
          rw [if_neg hother] at htally
          exact ⟨hdelivers.other hother id, htally⟩
      have hcons := hrest.cons hnodup.1 hfirst
      rw [← List.filter_append] at hcons
      exact hcons

/-- The consumer of the unit tests, watched at one message. -/
def watched (settings : ConsumerSettings) (hlimit : 1 ≤ settings.maxDelivery)
    {eventTypes : List EventType} (hnodup : (eventTypes.map EventType.streamFor).Nodup)
    (consumer stream : String) (id : Nat) :
    Watched machine (runtime settings eventTypes consumer)
      (.counting settings.maxDelivery hlimit) stream id where
  tally := tally stream id
  dispatch := dispatch_leads
  ack := ack_leads
  deadLetter := deadLetter_leads
  record := by
    intro record hrecord
    cases hrecord
  collect := by
    intro w _
    apply Ensures.bind
    apply leads_ask (.claimStale eventTypes consumer settings.claimIdleMs settings.batch)
    intro _ clock
    apply Ensures.bind
    apply leads_ask (.readNew eventTypes consumer settings.batch)
    intro _ clock' batch hbatch
    cases hbatch
    rw [List.filter_append]
    have hclaims := claimStreams_out consumer stream id hlimit clock settings.claimIdleMs
      settings.batch hnodup w
    have hreads := readNew_out consumer stream id hlimit clock' settings.batch hnodup
      { w with bus := (InMemoryBus.claimStreams consumer clock settings.claimIdleMs
        settings.batch eventTypes w.bus).2 }
    exact hclaims.1.collected hreads.1

end Commands

end InMemoryWorld

/-! ## The budgets -/

/-- The consumers over the bus of the unit tests. -/
def InMemoryWorld.consumers (settings : ConsumerSettings) (eventTypes : List EventType) :
    BusWorld InMemoryCommand.Answer InMemoryTurn Envelope InMemoryWorld where
  machine := InMemoryWorld.machine
  runtime := InMemoryWorld.runtime settings eventTypes
  add envelope w := { w with bus := w.bus.publish envelope }

/-- An entry, from the relay or from elsewhere, and what its append evicts. -/
structure Appended where
  stream : String
  fields : Wire
  maxLen : Nat
  evicted : Nat
  deriving DecidableEq

def Pipeline.append {δ : Type} (entry : Appended) (w : Pipeline δ) : Pipeline δ :=
  w.setStream entry.stream
    ((w.streams entry.stream).add entry.maxLen entry.evicted entry.fields)

/-- The consumers of a service over Redis Streams. -/
def Pipeline.consumers {δ : Type} (service : Service δ) (relay : RelaySettings)
    (settings : ConsumerSettings) :
    BusWorld PipelineCommand.Answer Turn Appended (Pipeline δ) where
  machine := Pipeline.machine service relay
  runtime := consumerRuntime settings service.eventTypes
  add := Pipeline.append

def Pipeline.fresh {δ : Type} (db : δ) : Pipeline δ :=
  ⟨0, .empty, [], fun _ => .empty, [], [], db, []⟩

/-- Over the bus of the unit tests a message whose handler always raises is dispatched
`limit` times, and dead lettered with the last dispatch. -/
def InMemoryWorld.KeepsBudget (limit : Nat) : Prop :=
  ∀ (settings : ConsumerSettings) (eventTypes : List EventType),
    settings.maxDelivery = limit → (eventTypes.map EventType.streamFor).Nodup →
    ∀ (stream : String) (id : Nat) (steps : List (BusStep Envelope InMemoryTurn)),
      AdmittedRun (consumers settings eventTypes).step (consumers settings eventTypes).Returns
        InMemoryWorld.empty steps →
      (tally stream id (runSteps (consumers settings eventTypes).step InMemoryWorld.empty
        steps)).Exactly limit

/-- The same over Redis Streams. -/
def Pipeline.KeepsBudget (limit : Nat) : Prop :=
  ∀ (δ : Type) (service : Service δ) (relay : RelaySettings) (settings : ConsumerSettings)
    (db : δ), settings.maxDelivery = limit →
    ∀ (stream : String) (id : Nat) (steps : List (BusStep Appended Turn)),
      AdmittedRun (consumers service relay settings).step
        (consumers service relay settings).Returns (fresh db) steps →
      (tally stream id (runSteps (consumers service relay settings).step (fresh db)
        steps)).Exactly limit

/-- A message which was not handed out is at rest. -/
theorem resting_untouched (policy : RetryPolicy) {stage : Stage}
    (hstage : ∀ k, stage ≠ .pending k) : Resting policy ⟨stage, 0, 0, false⟩ := by
  have hpositive := policy.positive
  refine ⟨fun k hk => absurd hk (hstage k), Or.inr ?_⟩
  cases stage with
  | unread => exact ⟨rfl, rfl⟩
  | pending k => exact absurd rfl (hstage k)
  | gone => exact Or.inl ⟨hpositive, rfl⟩

theorem stage_empty {β : Type} (id k : Nat) :
    (StreamGroup.empty : StreamGroup β).stage id ≠ .pending k := by
  rw [StreamGroup.stage_of_none rfl]
  split <;> simp

theorem InMemoryWorld.tally_publish (stream : String) (id : Nat) (envelope : Envelope)
    (w : InMemoryWorld) :
    tally stream id { w with bus := w.bus.publish envelope } = w.tally stream id := by
  have htally := tally_setStream stream id w envelope.eventType.streamFor
    ((w.bus.streams envelope.eventType.streamFor).add 0 0 envelope)
  rw [StreamGroup.stage_add] at htally
  refine htally.trans ?_
  split
  case isTrue hsame => exact atStage_self (by rw [← hsame]; rfl)
  case isFalse => rfl

theorem Pipeline.tally_append {δ : Type} (stream : String) (id : Nat) (entry : Appended)
    (w : Pipeline δ) : (w.append entry).tally stream id = w.tally stream id := by
  unfold append
  rw [tally_setStream, StreamGroup.stage_add]
  split
  case isTrue hsame => exact atStage_self (by rw [← hsame]; rfl)
  case isFalse => rfl

/-- The bus of the unit tests gives the budget which the limit promises. -/
theorem InMemoryWorld.keepsBudget {limit : Nat} (hlimit : 1 ≤ limit) :
    InMemoryWorld.KeepsBudget limit := by
  intro settings eventTypes hsame hnodup stream id steps hreturns
  rw [← hsame] at hlimit ⊢
  have hshows : (consumers settings eventTypes).Shows (.counting settings.maxDelivery hlimit)
      stream id (tally stream id) := {
    watched := fun consumer => watched settings hlimit hnodup consumer stream id
    limit := fun _ => rfl
    same := fun _ => rfl
    add := tally_publish stream id }
  exact (hshows.resting (resting_untouched _ (stage_empty id)) hreturns).exactly

/-- Redis Streams give one dispatch more, except at a limit of one. -/
theorem Pipeline.resting_run {δ : Type} (service : Service δ) (relay : RelaySettings)
    (settings : ConsumerSettings) (hlimit : 1 ≤ settings.maxDelivery) (db : δ)
    (stream : String) (id : Nat) {steps : List (BusStep Appended Turn)}
    (hreturns : AdmittedRun (consumers service relay settings).step
      (consumers service relay settings).Returns (fresh db) steps) :
    Resting (.countingBefore settings.maxDelivery hlimit)
      (tally stream id (runSteps (consumers service relay settings).step (fresh db) steps)) := by
  have hshows : (consumers service relay settings).Shows
      (.countingBefore settings.maxDelivery hlimit) stream id (tally stream id) := {
    watched := fun consumer =>
      watched service relay settings hlimit service.nodup consumer stream id
    limit := fun _ => rfl
    same := fun _ => rfl
    add := tally_append stream id }
  exact hshows.resting (resting_untouched _ (stage_empty id)) hreturns

/-! ## A message which is refused over Redis -/

section Refused

def refusedEvent : Envelope :=
  ⟨.uuid5 "event", .transferRequested, "wallet-service", "correlation", [], []⟩

def refusedStream : String := EventType.transferRequested.streamFor

/-- The handler raises for a reason of its own. -/
def refusedTurn : Turn := ⟨0, 0, ⟨0, none, "correlation", 0⟩, some .valueError⟩

def refusedPoll : BusStep Appended Turn := .poll "consumer" (List.replicate 7 refusedTurn)

def refusedConsumers (limit : Nat) :
    BusWorld PipelineCommand.Answer Turn Appended (Pipeline Blockchain.Db) :=
  Pipeline.consumers Blockchain.service ⟨100, 60⟩ ⟨limit, 0, 1⟩

/-- The only entry of its stream, after so many deliveries. -/
def refusedGroup (deliveries : Nat) : StreamGroup Wire where
  entries := [(1, refusedEvent.toWire)]
  lastId := 1
  cursor := 1
  pending := ⟨[⟨1, "consumer", 0, deliveries⟩], by simp⟩
  ascending := by simp
  entriesLe := by simp
  cursorLe := by simp
  pendingLe := by simp

/-- The message was delivered so often, and no dispatch of it returned. -/
structure Refused (deliveries : Nat) (w : Pipeline Blockchain.Db) : Prop where
  clock : w.clock = 0
  group : w.streams refusedStream = refusedGroup deliveries
  failed : w.journal.any (Happening.succeeds refusedStream 1) = false

theorem Refused.setStream {k k' : Nat} {w : Pipeline Blockchain.Db} (h : Refused k w)
    {group : StreamGroup Wire} (hgroup : group = refusedGroup k') {happenings : List Happening}
    (hfailed : happenings.any (Happening.succeeds refusedStream 1) = false) :
    Refused k' ((w.setStream refusedStream group).noted happenings) where
  clock := h.clock
  group := by
    change Function.update w.streams refusedStream group refusedStream = _
    rw [Function.update_self]
    exact hgroup
  failed := by
    simp only [Pipeline.noted, Pipeline.setStream, List.any_append, h.failed, hfailed,
      Bool.or_false]

variable {limit k : Nat} {w : Pipeline Blockchain.Db}

/-- The delivery is claimed again, with the count before the claim. -/
theorem Refused.claims (limit : Nat) (h : Refused k w) :
    ∃ w', Refused (k + 1) w' ∧
      (RedisStreamsBus.claimStream redisClient "consumer" 0 1 refusedStream).Ends
        (refusedConsumers limit).machine [refusedTurn, refusedTurn] w
        (.ok [⟨refusedStream, 1, refusedEvent, k⟩]) w' := by
  have hpending : (refusedConsumers limit).machine.perform refusedTurn
      (.xpendingRange refusedStream 1 0) w = (.ok [(1, k)], w) := by
    change ((.ok ((w.streams refusedStream).idlePending w.clock 0 1), w) :
      Except BusError _ × _) = _
    rw [h.group, h.clock]
    rfl
  have hclaim : (w.streams refusedStream).claim "consumer" w.clock 0 [1] =
      (refusedGroup (k + 1), [(1, refusedEvent.toWire)]) := by
    rw [h.group, h.clock]
    rfl
  let w' := (w.setStream refusedStream (refusedGroup (k + 1))).noted
    [.handedOut refusedStream 1 refusedEvent.toWire]
  have hclaimed : (refusedConsumers limit).machine.perform refusedTurn
      (.xclaim refusedStream "consumer" 0 [1]) w =
        (.ok [(1, some refusedEvent.toWire)], w') := by
    change ((.ok ((w.claimGroup refusedStream "consumer" w.clock 0 [1]).1),
      (w.claimGroup refusedStream "consumer" w.clock 0 [1]).2) : Except BusError _ × _) = _
    unfold Pipeline.claimGroup
    rw [hclaim]
    rfl
  refine ⟨w', h.setStream rfl rfl, ?_⟩
  apply Ends.bind [refusedTurn] [refusedTurn] (Ends.perform hpending)
  rw [if_neg (by simp)]
  apply Ends.bind [refusedTurn] [] (Ends.perform hclaimed)
  exact ⟨rfl, rfl⟩

/-- Nothing is left to be read. -/
theorem Refused.reads (limit : Nat) (h : Refused k w) :
    ∃ w', Refused k w' ∧
      (RedisStreamsBus.readNew redisClient [.transferRequested] "consumer" 1).Ends
        (refusedConsumers limit).machine [refusedTurn] w (.ok []) w' := by
  have hread : (w.streams refusedStream).read "consumer" w.clock 1 = (refusedGroup k, []) := by
    rw [h.group, h.clock]
    rfl
  let w' := (w.setStream refusedStream (refusedGroup k)).noted []
  have hanswer : (refusedConsumers limit).machine.perform refusedTurn
      (.xreadgroup "consumer" [refusedStream] 1) w = (.ok [], w') := by
    change ((.ok (((Pipeline.readGroups "consumer" w.clock 1 [refusedStream] w).1).filter
      fun answer => answer.2 ≠ []), (Pipeline.readGroups "consumer" w.clock 1 [refusedStream]
        w).2) : Except BusError _ × _) = _
    unfold Pipeline.readGroups
    rw [hread]
    rfl
  refine ⟨w', h.setStream rfl rfl, ?_⟩
  unfold RedisStreamsBus.readNew
  rw [if_neg (by simp)]
  exact Ends.bind [refusedTurn] [] (Ends.perform hanswer) ⟨rfl, rfl⟩

theorem Refused.dispatches (h : Refused k w) {number : Nat} (hlimit : number < limit) :
    ∃ w', Refused k w' ∧
      (((refusedConsumers limit).runtime "consumer").handle
          ⟨refusedStream, 1, refusedEvent, number⟩).Ends
        (refusedConsumers limit).machine [refusedTurn] w (.ok ()) w' := by
  let d : DeliveredEvent := ⟨refusedStream, 1, refusedEvent, number⟩
  let w' := w.noted [.dispatched d (.error (.handler .valueError))]
  have hdispatch : (refusedConsumers limit).machine.perform refusedTurn (.dispatch d) w =
      (.error (.handler .valueError), w') := rfl
  have hrefused : Refused k w' := by
    refine ⟨h.clock, h.group, ?_⟩
    simp [w', Pipeline.noted, h.failed, Happening.succeeds]
  refine ⟨w', hrefused, ?_⟩
  have hbelow : ¬ limit < number := by omega
  have hleft : ¬ limit ≤ number := by omega
  unfold ConsumerRuntime.handle
  split
  case isTrue hgt => exact absurd hgt hbelow
  case isFalse =>
    apply Ends.tryCatch_error [refusedTurn] []
    · exact Ends.bind_error (Ends.perform hdispatch)
    · split
      case isTrue hge => exact absurd hge hleft
      case isFalse => exact ⟨rfl, rfl⟩

/-- A poll whose whole batch is the message, below the limit. -/
theorem refusedPoll_of {w w₁ w₂ : Pipeline Blockchain.Db} {number : Nat}
    {stale fresh : List DeliveredEvent} {turns turns' : List Turn} (spare : List Turn)
    (hclaims : (RedisStreamsBus.claimStream redisClient "consumer" 0 1 refusedStream).Ends
      (refusedConsumers limit).machine turns w (.ok stale) w₁)
    (hreads : (RedisStreamsBus.readNew redisClient [.transferRequested] "consumer" 1).Ends
      (refusedConsumers limit).machine turns' w₁ (.ok fresh) w₂)
    (hbatch : (stale ++ []) ++ fresh = [⟨refusedStream, 1, refusedEvent, number⟩])
    (hturns : turns ++ turns' ++ [refusedTurn] ++ spare = List.replicate 7 refusedTurn)
    (h₂ : Refused k w₂) (hlimit : number < limit) :
    (refusedConsumers limit).Returns w refusedPoll ∧
      Refused k ((refusedConsumers limit).step refusedPoll w) := by
  obtain ⟨w₃, h₃, hhandles⟩ := h₂.dispatches hlimit
  have hcollect : ((refusedConsumers limit).runtime "consumer").collect.Ends
      (refusedConsumers limit).machine (turns ++ turns') w
      (.ok [⟨refusedStream, 1, refusedEvent, number⟩]) w₂ := by
    apply Ends.bind (a := (stale ++ [], [])) (t := w₁) turns turns'
    · rw [← List.append_nil turns]
      apply Ends.bind (a := stale ++ []) (t := w₁) turns []
      · rw [← List.append_nil turns]
        exact Ends.bind turns [] hclaims ⟨rfl, rfl⟩
      · exact ⟨rfl, rfl⟩
    · rw [← List.append_nil turns']
      refine Ends.bind turns' [] hreads ?_
      exact ⟨congrArg Except.ok hbatch, rfl⟩
  have hrun : ((refusedConsumers limit).runtime "consumer").runOnce.Ends
      (refusedConsumers limit).machine (turns ++ turns' ++ [refusedTurn]) w (.ok 1) w₃ := by
    apply Ends.bind (turns ++ turns') [refusedTurn] hcollect
    exact Ends.bind [refusedTurn] [] hhandles ⟨rfl, rfl⟩
  have hexecute := hrun.execute spare
  rw [hturns] at hexecute
  constructor
  · simp only [BusWorld.Returns, refusedPoll, hexecute]
    rfl
  · simp only [BusWorld.step, refusedPoll, hexecute]
    exact h₃

/-- A poll below the limit delivers the message once more and leaves it pending. -/
theorem Refused.poll (limit : Nat) (h : Refused k w) (hlimit : k < limit) :
    (refusedConsumers limit).Returns w refusedPoll ∧
      Refused (k + 1) ((refusedConsumers limit).step refusedPoll w) := by
  obtain ⟨w₁, h₁, hclaims⟩ := h.claims limit
  obtain ⟨w₂, h₂, hreads⟩ := h₁.reads limit
  exact refusedPoll_of [refusedTurn, refusedTurn, refusedTurn] hclaims hreads rfl rfl h₂ hlimit

def refusedEntry : Appended := ⟨refusedStream, refusedEvent.toWire, 0, 0⟩

/-- The message, appended and not read. -/
def refusedStart : Pipeline Blockchain.Db :=
  (Pipeline.fresh Blockchain.Db.empty).append refusedEntry

/-- The first poll reads it. -/
theorem refused_first (hlimit : 1 < limit) :
    (refusedConsumers limit).Returns refusedStart refusedPoll ∧
      Refused 1 ((refusedConsumers limit).step refusedPoll refusedStart) := by
  have hpending : (refusedConsumers limit).machine.perform refusedTurn
      (.xpendingRange refusedStream 1 0) refusedStart = (.ok [], refusedStart) := rfl
  have hclaims : (RedisStreamsBus.claimStream redisClient "consumer" 0 1 refusedStream).Ends
      (refusedConsumers limit).machine [refusedTurn] refusedStart (.ok []) refusedStart :=
    Ends.bind [refusedTurn] [] (Ends.perform hpending) ⟨rfl, rfl⟩
  have hread : (refusedStart.streams refusedStream).read "consumer" refusedStart.clock 1 =
      (refusedGroup 1, [(1, refusedEvent.toWire)]) := rfl
  let w := (refusedStart.setStream refusedStream (refusedGroup 1)).noted
    [.handedOut refusedStream 1 refusedEvent.toWire]
  have hanswer : (refusedConsumers limit).machine.perform refusedTurn
      (.xreadgroup "consumer" [refusedStream] 1) refusedStart =
        (.ok [(refusedStream, [(1, refusedEvent.toWire)])], w) := by
    change ((.ok (((Pipeline.readGroups "consumer" refusedStart.clock 1 [refusedStream]
      refusedStart).1).filter fun answer => answer.2 ≠ []),
      (Pipeline.readGroups "consumer" refusedStart.clock 1 [refusedStream] refusedStart).2) :
        Except BusError _ × _) = _
    unfold Pipeline.readGroups
    rw [hread]
    rfl
  have hreads : (RedisStreamsBus.readNew redisClient [.transferRequested] "consumer" 1).Ends
      (refusedConsumers limit).machine [refusedTurn] refusedStart
      (.ok [⟨refusedStream, 1, refusedEvent, 1⟩]) w := by
    unfold RedisStreamsBus.readNew
    rw [if_neg (by simp)]
    exact Ends.bind [refusedTurn] [] (Ends.perform hanswer) ⟨rfl, rfl⟩
  have hrefused : Refused 1 w := by
    refine ⟨rfl, ?_, rfl⟩
    change Function.update refusedStart.streams refusedStream (refusedGroup 1) refusedStream = _
    rw [Function.update_self]
  exact refusedPoll_of [refusedTurn, refusedTurn, refusedTurn, refusedTurn] hclaims hreads rfl
    rfl hrefused hlimit

/-- As many polls as the limit allows, and the message is still pending. -/
theorem Refused.polls (limit : Nat) (h : Refused k w) (n : Nat) (hn : k + n ≤ limit) :
    AdmittedRun (refusedConsumers limit).step (refusedConsumers limit).Returns w
        (List.replicate n refusedPoll) ∧
      Refused (k + n) (runSteps (refusedConsumers limit).step w
        (List.replicate n refusedPoll)) := by
  induction n generalizing k w with
  | zero => exact ⟨trivial, h⟩
  | succ n ih =>
      have hpoll := h.poll limit (by omega)
      have hrest := ih hpoll.2 (by omega)
      rw [List.replicate_succ]
      refine ⟨⟨hpoll.1, hrest.1⟩, ?_⟩
      rw [runSteps_cons, show k + (n + 1) = k + 1 + n by omega]
      exact hrest.2

theorem Refused.stage (h : Refused k w) : (w.tally refusedStream 1).stage = .pending k := by
  change (w.streams refusedStream).stage 1 = _
  rw [h.group]
  rfl

/-- Over Redis a limit above one is not the number of attempts. -/
theorem Pipeline.budget_exceeds (hlimit : 1 < limit) : ¬ Pipeline.KeepsBudget limit := by
  intro hkeeps
  let bus := refusedConsumers limit
  let steps := BusStep.add refusedEntry :: refusedPoll :: List.replicate (limit - 1) refusedPoll
  have hfirst := refused_first hlimit
  have hpolls := hfirst.2.polls limit (limit - 1) (by omega)
  have hreturns : AdmittedRun bus.step bus.Returns (Pipeline.fresh Blockchain.Db.empty) steps :=
    ⟨trivial, hfirst.1, hpolls.1⟩
  have hrefused : Refused limit
      (runSteps bus.step (Pipeline.fresh Blockchain.Db.empty) steps) := by
    have hlast := hpolls.2
    rw [show 1 + (limit - 1) = limit by omega] at hlast
    exact hlast
  have hexactly := hkeeps Blockchain.Db Blockchain.service ⟨100, 60⟩ ⟨limit, 0, 1⟩
    Blockchain.Db.empty rfl refusedStream 1 steps hreturns
  have hpositive : 1 ≤ limit := by omega
  have hresting := Pipeline.resting_run Blockchain.service ⟨100, 60⟩ ⟨limit, 0, 1⟩ hpositive
    Blockchain.Db.empty refusedStream 1 hreturns
  have hfailed : (Pipeline.tally refusedStream 1 (runSteps bus.step
      (Pipeline.fresh Blockchain.Db.empty) steps)).succeeded = false := hrefused.failed
  have hcounts := hresting.attempts_of_pending hrefused.stage hfailed
  rcases hexactly with hsuccess | ⟨_, hdropped⟩
  · exact absurd (hfailed.symm.trans hsuccess) (by simp)
  · have hgiven := hdropped.mpr hcounts.1
    omega

end Refused

theorem Pipeline.keepsBudget_one : Pipeline.KeepsBudget 1 := by
  intro δ service relay settings db hsame stream id steps hreturns
  have hpositive : 1 ≤ settings.maxDelivery := by omega
  have hexactly :=
    (Pipeline.resting_run service relay settings hpositive db stream id hreturns).exactly
  have hbudget : (RetryPolicy.countingBefore settings.maxDelivery hpositive).budget = 1 := by
    simp [RetryPolicy.countingBefore, hsame]
  rw [hbudget] at hexactly
  exact hexactly

/-- Both buses keep to the limit only where it allows a single attempt. -/
theorem same_retry_budget_iff (limit : Nat) (hlimit : 1 ≤ limit) :
    (InMemoryWorld.KeepsBudget limit ∧ Pipeline.KeepsBudget limit) ↔ limit = 1 := by
  constructor
  · intro h
    by_contra hone
    exact Pipeline.budget_exceeds (by omega) h.2
  · intro hone
    subst hone
    exact ⟨InMemoryWorld.keepsBudget hlimit, Pipeline.keepsBudget_one⟩

theorem one_attempt_on_both_buses :
    1 ≤ 1 ∧ InMemoryWorld.KeepsBudget 1 ∧ Pipeline.KeepsBudget 1 :=
  ⟨by decide, (same_retry_budget_iff 1 (by decide)).mpr rfl⟩

/-- The limit is two: three polls dispatch the message three times, and only the third
gives it up. -/
theorem third_attempt_over_redis :
    let bus := refusedConsumers 2
    let start := Pipeline.fresh Blockchain.Db.empty
    let steps := [.add refusedEntry, refusedPoll, refusedPoll]
    AdmittedRun bus.step bus.Returns start (steps ++ [refusedPoll]) ∧
      (runSteps bus.step start steps).tally refusedStream 1 = ⟨.pending 2, 2, 0, false⟩ ∧
      (runSteps bus.step start (steps ++ [refusedPoll])).tally refusedStream 1 =
        ⟨.gone, 3, 1, false⟩ ∧
      ¬ Pipeline.KeepsBudget 2 := by
  refine ⟨?_, ?_, ?_, ?_⟩
  · decide +kernel
  · decide +kernel
  · decide +kernel
  · exact Pipeline.budget_exceeds (by decide)

end CryptoWallet
