import CryptoWallet.EventDelivery

/-!
# Producers, relays and consumers taking turns

Any number of relay replicas and consumers, each somewhere in its program, together
with the transactions of the two services.  A process which stops is started again
from the beginning of its program.

As long as no append evicts what nobody has dealt with, no committed event is lost.
A consumer which lags behind by more than the length of its stream loses one: the
outbox row is published, and neither the stream nor the service knows the event.
-/

namespace CryptoWallet

variable {δ : Type}

inductive ProcessId where
  | relay (replica : Nat)
  | consumer (name : String)
  deriving DecidableEq

structure DeliverySettings where
  relay : RelaySettings
  maxLen : Nat
  consumer : ConsumerSettings

/-- The default settings. -/
def DeliverySettings.standard : DeliverySettings := ⟨⟨100, 60⟩, 100000, ⟨5, 30000, 32⟩⟩

/-- The shared state and the processes which are under way. -/
structure DeliverySystem (δ : Type) where
  shared : Pipeline δ
  processes : ProcessId → Option (Program PipelineCommand.Answer BusError Nat)

/-- A business transaction enqueues an event; the consuming service commits another
transaction; a process starts a run, carries out one command, or is gone. -/
inductive DeliveryAction (service : Service δ) where
  | enqueue (envelope : Envelope)
  | other (tx : { f : δ → δ //
      ∀ db id, service.recorded db id = true → service.recorded (f db) id = true })
  | start (id : ProcessId)
  | advance (id : ProcessId) (fate : Fate BusError) (turn : Turn)
  | stop (id : ProcessId)

namespace DeliverySystem

def init (db : δ) : DeliverySystem δ where
  shared := ⟨0, .empty, [], fun _ => .empty, [], [], db, []⟩
  processes _ := none

variable (service : Service δ) (settings : DeliverySettings)

def programOf : ProcessId → Program PipelineCommand.Answer BusError Nat
  | .relay replica => relayRunOnce settings.relay settings.maxLen replica
  | .consumer name => (consumerRuntime settings.consumer service.eventTypes name).runOnce

def setProcess (s : DeliverySystem δ) (id : ProcessId)
    (program : Option (Program PipelineCommand.Answer BusError Nat)) : DeliverySystem δ :=
  { s with processes := Function.update s.processes id program }

theorem setProcess_self (s : DeliverySystem δ) (id : ProcessId)
    (program : Option (Program PipelineCommand.Answer BusError Nat)) :
    (s.setProcess id program).processes id = program := Function.update_self ..

/-- The locks of a relay end with its transaction. -/
def release (id : ProcessId) (w : Pipeline δ) : Pipeline δ :=
  match id with
  | .relay replica => { w with locked := w.locked.filter (·.1 ≠ replica) }
  | .consumer _ => w

def step (action : DeliveryAction service) (s : DeliverySystem δ) : DeliverySystem δ :=
  match action with
  | .enqueue envelope =>
    match enqueueEvent s.shared.outbox envelope with
    | .ok outbox => { s with shared := { s.shared with outbox } }
    | .error _ => s
  | .other tx => { s with shared := { s.shared with db := tx.val s.shared.db } }
  | .start id =>
    match s.processes id with
    | none => s.setProcess id (some (programOf service settings id))
    | some _ => s
  | .advance id fate turn =>
    match s.processes id with
    | some (.call command next) =>
      let (answer, shared) :=
        (Pipeline.machine service settings.relay).faulty.perform (fate, turn) command s.shared
      { s with shared }.setProcess id (some (next answer))
    | _ => s
  | .stop id => { s with shared := release id s.shared }.setProcess id none

/-- What the process will ask for next. -/
def command? (s : DeliverySystem δ) (id : ProcessId) : Option PipelineCommand :=
  match s.processes id with
  | some (.call command _) => some command
  | _ => none

/-- No command evicts an entry of an unsettled event which the group still has to deal
with. -/
def Spared (s : DeliverySystem δ) : DeliveryAction service → Prop
  | .advance id fate turn =>
    ∀ command ∈ s.command? id, Pipeline.Spares service (fate, turn) command s.shared
  | _ => True

instance (s : DeliverySystem δ) (action : DeliveryAction service) :
    Decidable (Spared service s action) :=
  match action with
  | .enqueue _ | .other _ | .start _ | .stop _ => .isTrue trivial
  | .advance id fate turn => inferInstanceAs
      (Decidable (∀ command ∈ s.command? id, Pipeline.Spares service (fate, turn) command
        s.shared))

/-- What was published was sent, and all processes keep to that. -/
structure Inv (s : DeliverySystem δ) : Prop where
  accounted : s.shared.Accounted service
  processes : ∀ id program, s.processes id = some program →
    Pipeline.Holds service settings.relay (fun _ _ => True) program s.shared

variable {service settings} {s : DeliverySystem δ}

theorem Inv.init (db : δ) : Inv service settings (init db) where
  accounted := by
    intro row hrow
    cases hrow
  processes := by
    intro id program h
    cases h

/-- A step of one process, within the relation. -/
theorem Inv.moved (h : Inv service settings s) {s' : DeliverySystem δ}
    (hsteady : Pipeline.Steady service s.shared s'.shared)
    (hprocesses : ∀ id program, s'.processes id = some program →
      s.processes id = some program ∨
        Pipeline.Holds service settings.relay (fun _ _ => True) program s'.shared) :
    Inv service settings s' where
  accounted := hsteady.accounted h.accounted
  processes := by
    intro id program hprogram
    rcases hprocesses id program hprogram with hold | hnew
    · exact (h.processes id program hold).later (fun h h' => h.trans h')
        (fun _ _ _ _ h => h) hsteady
    · exact hnew

theorem setProcess_cases {id : ProcessId}
    {new : Option (Program PipelineCommand.Answer BusError Nat)} {other : ProcessId}
    {program : Program PipelineCommand.Answer BusError Nat}
    (h : (s.setProcess id new).processes other = some program) :
    s.processes other = some program ∨ new = some program := by
  have hupdate : (s.setProcess id new).processes other =
      if other = id then new else s.processes other :=
    Function.update_apply s.processes id new other
  rw [hupdate] at h
  split at h
  · exact Or.inr h
  · exact Or.inl h

theorem programOf_holds (id : ProcessId) (w : Pipeline δ) :
    Pipeline.Holds service settings.relay (fun _ _ => True) (programOf service settings id)
      w := by
  cases id with
  | relay replica => exact Pipeline.holds_relayRunOnce settings.relay settings.maxLen replica w
  | consumer name =>
      exact Pipeline.holds_runOnce settings.consumer service.eventTypes name w

theorem Inv.step (h : Inv service settings s) (action : DeliveryAction service)
    (hspared : Spared service s action) :
    Inv service settings (DeliverySystem.step service settings action s) := by
  cases action with
  | enqueue envelope =>
      simp only [DeliverySystem.step]
      cases henqueue : enqueueEvent s.shared.outbox envelope with
      | error e => exact h
      | ok outbox =>
          refine h.moved ⟨fun _ _ _ h => h, fun _ h => h, fun _ h => h,
            enqueueEvent_grows henqueue, ?_⟩ fun _ _ hprogram => Or.inl hprogram
          intro haccounted row hrow hpublished
          rcases enqueueEvent_rows henqueue with ⟨_, rfl⟩ | ⟨_, hrows⟩
          · exact haccounted row hrow hpublished
          · rw [hrows] at hrow
            rcases List.mem_append.mp hrow with hold | hnew
            · exact haccounted row hold hpublished
            · rw [List.mem_singleton.mp hnew] at hpublished
              cases hpublished
  | other tx =>
      refine h.moved (.of_settled rfl rfl ?_) fun _ _ hprogram => Or.inl hprogram
      exact fun id hid => hid.imp (tx.property _ _) fun h => h
  | start id =>
      simp only [DeliverySystem.step]
      cases hid : s.processes id with
      | some program => exact h
      | none =>
          have hsteady : Pipeline.Steady service s.shared
              (s.setProcess id (some (programOf service settings id))).shared :=
            .refl s.shared
          apply h.moved hsteady
          intro other program hprogram
          apply (setProcess_cases hprogram).imp (fun h => h)
          intro hnew
          rw [← Option.some.inj hnew]
          exact programOf_holds id s.shared
  | advance id fate turn =>
      simp only [DeliverySystem.step, Spared] at hspared ⊢
      cases hid : s.processes id with
      | none => exact h
      | some program =>
          cases program with
          | done result => exact h
          | call command next =>
              have hcommand : s.command? id = some command := by
                simp only [command?, hid]
              obtain ⟨hsteady, hnext⟩ := h.processes id _ hid s.shared (.refl _)
                (fate, turn) (hspared command hcommand)
              apply h.moved hsteady
              intro other program hprogram
              apply (setProcess_cases hprogram).imp (fun h => h)
              intro hnew
              rw [← Option.some.inj hnew]
              exact hnext
  | stop id =>
      have hrelease : Pipeline.Steady service s.shared (release id s.shared) := by
        cases id with
        | relay replica => exact .of_same rfl rfl rfl rfl
        | consumer name => exact .refl _
      apply h.moved hrelease
      intro other program hprogram
      apply (setProcess_cases hprogram).imp (fun h => h)
      intro hnew
      cases hnew

/-- In every run in which no append evicts an entry of an unsettled event which the
group still has to deal with, no committed event is lost, whatever else fails. -/
theorem spared_runs_lose_nothing (db : δ) {actions : List (DeliveryAction service)}
    (hspared : AdmittedRun (DeliverySystem.step service settings)
      (Spared service) (DeliverySystem.init db) actions) :
    ∀ envelope ∈ (runSteps (DeliverySystem.step service settings) (DeliverySystem.init db)
      actions).shared.outbox.envelopes,
      (runSteps (DeliverySystem.step service settings) (DeliverySystem.init db)
        actions).shared.Kept service envelope := by
  have hinv := AdmittedRun.invariant (I := Inv service settings)
    (fun _ action h hadmitted => h.step action hadmitted) (Inv.init db) hspared
  exact fun _ hmem => hinv.accounted.kept hmem

/-- A process which is given all its turns in a row runs as it does alone. -/
theorem advance_alone (service : Service δ) (settings : DeliverySettings) {id : ProcessId}
    {program : Program PipelineCommand.Answer BusError Nat}
    (hid : s.processes id = some program) (turns : List (Fate BusError × Turn)) :
    (runSteps (DeliverySystem.step service settings) s
      (turns.map fun turn => .advance id turn.1 turn.2)).shared =
      (program.execute (Pipeline.machine service settings.relay).faulty turns
        s.shared).state := by
  induction turns generalizing s program with
  | nil => cases program <;> rfl
  | cons turn rest ih =>
      rw [List.map_cons, runSteps_cons]
      cases program with
      | done result =>
          have hstay : DeliverySystem.step service settings (.advance id turn.1 turn.2) s =
              s := by
            simp only [DeliverySystem.step, hid]
          rw [hstay, ih hid]
          cases rest <;> rfl
      | call command next =>
          have hmove : DeliverySystem.step service settings (.advance id turn.1 turn.2) s =
              DeliverySystem.setProcess
                { s with shared := ((Pipeline.machine service settings.relay).faulty.perform
                  turn command s.shared).2 } id
                (some (next ((Pipeline.machine service settings.relay).faulty.perform
                  turn command s.shared).1)) := by
            simp only [DeliverySystem.step, hid]
          rw [hmove, ih (setProcess_self _ _ _)]
          rfl

/-! ## A consumer which lags behind -/

section Lagging

/-- The only row which is not published is claimed. -/
theorem claimRows_last {w : Pipeline δ} (hlocked : w.locked = []) {rows : List OutboxRow}
    {row : OutboxRow} (hrows : w.outbox.rows = rows ++ [row])
    (hpublished : ∀ old ∈ rows, old.publishedAt.isSome = true)
    (hnew : row.publishedAt = none) (hdue : row.nextAttemptAt = none) (now replica : Nat)
    {limit : Nat} (hlimit : 0 < limit) :
    w.claimRows now replica limit =
      ([row], { w with locked := [(replica, row.eventId)] }) := by
  have hold : rows.filter (fun row => row.due now &&
      !(w.locked.map Prod.snd).contains row.eventId) = [] := by
    rw [List.filter_eq_nil_iff]
    intro old hold
    have hsome := hpublished old hold
    simp [OutboxRow.due, Option.isNone_eq_false_iff.mpr hsome]
  have hselect : w.outbox.select (fun row => row.due now &&
      !(w.locked.map Prod.snd).contains row.eventId) = [row] := by
    unfold Table.select
    rw [hrows, List.filter_append, hold, hlocked]
    simp [OutboxRow.due, hnew, hdue]
  unfold Pipeline.claimRows
  rw [hselect, List.take_of_length_le (by simpa using Nat.succ_le_of_lt hlimit), hlocked]
  rfl

/-- A run of the relay which claims one row: it is published and marked. -/
theorem relayRunOnce_executes (service : Service δ) {w : Pipeline δ} {row : OutboxRow}
    {relay : RelaySettings} (maxLen : Nat) (turn : Turn)
    (hclaim : ({ w with clock := w.clock + turn.elapsed } : Pipeline δ).claimRows
        turn.scope.now 0 relay.batchSize =
      ([row], { w with
        clock := w.clock + turn.elapsed
        locked := [(0, row.eventId)] })) :
    ((relayRunOnce relay maxLen 0).execute (Pipeline.machine service relay).faulty
      (List.replicate 3 (.through, turn)) w).state =
      Pipeline.markRows relay turn.scope.now 0 [(row.eventId, none)]
        { w with
          clock := w.clock + turn.elapsed + turn.elapsed + turn.elapsed
          locked := [(0, row.eventId)]
          streams := Function.update w.streams row.envelope.eventType.streamFor
            ((w.streams row.envelope.eventType.streamFor).add maxLen turn.evicted
              row.envelope.toWire) } := by
  have hfirst : (Pipeline.machine service relay).perform turn
      (.claimRows 0 relay.batchSize) w =
      (.ok [row], { w with
        clock := w.clock + turn.elapsed
        locked := [(0, row.eventId)] }) := by
    simp only [Pipeline.machine, Pipeline.carryOut, hclaim]
  simp only [relayRunOnce, send, Program.perform, List.replicate]
  simp only [Bind.bind, Program.bind, Program.execute, Machine.faulty, hfirst]
  rfl

/-- One event is enqueued, and a replica of the relay publishes it. -/
def cycle (service : Service δ) (envelope : Envelope) (turn : Turn) :
    List (DeliveryAction service) :=
  [.enqueue envelope, .start (.relay 0)] ++
    (List.replicate 3 (Fate.through, turn)).map (fun turn =>
      .advance (.relay 0) turn.1 turn.2) ++ [.stop (.relay 0)]

/-- All events of the outbox are published, and nobody has read any of them. -/
structure Lagging (events : List Envelope) (stream : String) (db : δ) (dropped : Nat)
    (s : DeliverySystem δ) : Prop where
  idle : s.processes (.relay 0) = none
  locked : s.shared.locked = []
  envelopes : s.shared.outbox.envelopes = events
  published : ∀ row ∈ s.shared.outbox.rows, row.publishedAt.isSome = true
  entries : (s.shared.streams stream).entries.map Prod.snd =
    (events.drop dropped).map Envelope.toWire
  db : s.shared.db = db
  letters : s.shared.deadLetters = []

theorem Lagging.cycle (service : Service δ) (settings : DeliverySettings)
    {events : List Envelope} {db : δ} {envelope : Envelope}
    (h : Lagging events envelope.eventType.streamFor db 0 s)
    (hfresh : ∀ event ∈ events, event.eventId ≠ envelope.eventId)
    (hfits : ∃ outbox, enqueueEvent s.shared.outbox envelope = .ok outbox)
    (hbatch : 0 < settings.relay.batchSize) (turn : Turn) :
    Lagging (events ++ [envelope]) envelope.eventType.streamFor db
      (min turn.evicted (events.length + 1 - settings.maxLen))
      (runSteps (DeliverySystem.step service settings) s (cycle service envelope turn)) := by
  obtain ⟨outbox, houtbox⟩ := hfits
  have hrows : outbox.rows = s.shared.outbox.rows ++ [⟨envelope, none, 0, none, none⟩] := by
    rcases enqueueEvent_rows houtbox with ⟨hhas, _⟩ | ⟨_, hrows⟩
    · obtain ⟨event, hevent, hid⟩ := (Outbox.has_iff _ _).mp hhas
      exact absurd hid (hfresh event (h.envelopes ▸ hevent))
    · exact hrows
  have hstart : runSteps (DeliverySystem.step service settings) s
      [.enqueue envelope, .start (.relay 0)] =
      DeliverySystem.setProcess { s with shared := { s.shared with outbox } } (.relay 0)
        (some (programOf service settings (.relay 0))) := by
    simp only [runSteps_cons, runSteps_nil, DeliverySystem.step, houtbox, h.idle]
  have hclaim : ({ s.shared with outbox, clock := s.shared.clock + turn.elapsed } :
      Pipeline δ).claimRows turn.scope.now 0 settings.relay.batchSize =
      ([⟨envelope, none, 0, none, none⟩], { s.shared with
        outbox
        clock := s.shared.clock + turn.elapsed
        locked := [(0, envelope.eventId)] }) :=
    claimRows_last
      (w := { s.shared with outbox, clock := s.shared.clock + turn.elapsed })
      h.locked hrows h.published rfl rfl _ _ hbatch
  have hmarked := relayRunOnce_executes service
    (w := { s.shared with outbox }) settings.maxLen turn hclaim
  generalize hs : DeliverySystem.setProcess { s with shared := { s.shared with outbox } }
    (.relay 0) (some (programOf service settings (.relay 0))) = started at hstart
  have hprocess : started.processes (.relay 0) =
      some (relayRunOnce settings.relay settings.maxLen 0) := by
    rw [← hs]
    exact setProcess_self _ _ _
  have hshared := advance_alone service settings hprocess
    (List.replicate 3 (Fate.through, turn))
  have hbefore : started.shared = { s.shared with outbox } := by rw [← hs]; rfl
  rw [hbefore, hmarked] at hshared
  have hend : runSteps (DeliverySystem.step service settings) s
      (DeliverySystem.cycle service envelope turn) =
      DeliverySystem.step service settings (.stop (.relay 0))
        (runSteps (DeliverySystem.step service settings) started
          ((List.replicate 3 (Fate.through, turn)).map fun turn =>
            .advance (.relay 0) turn.1 turn.2)) := by
    unfold DeliverySystem.cycle
    rw [runSteps_append, runSteps_append, hstart]
    rfl
  have hlast : (DeliverySystem.step service settings (.stop (.relay 0))
      (runSteps (DeliverySystem.step service settings) started
        ((List.replicate 3 (Fate.through, turn)).map fun turn =>
          .advance (.relay 0) turn.1 turn.2))).shared =
      release (.relay 0) (Pipeline.markRows settings.relay turn.scope.now 0
        [(envelope.eventId, none)]
        { s.shared with
          outbox
          clock := s.shared.clock + turn.elapsed + turn.elapsed + turn.elapsed
          locked := [(0, envelope.eventId)]
          streams := Function.update s.shared.streams envelope.eventType.streamFor
            ((s.shared.streams envelope.eventType.streamFor).add settings.maxLen turn.evicted
              envelope.toWire) }) :=
    congrArg (release (.relay 0)) hshared
  rw [hend]
  refine ⟨setProcess_self _ _ _, ?_, ?_, ?_, ?_, ?_, ?_⟩
  all_goals rw [hlast]
  · simp [release, Pipeline.markRows]
  · refine Eq.trans (Pipeline.markRows_envelopes _ settings.relay
      turn.scope.now 0 [(envelope.eventId, none)]) ?_
    simp [Outbox.envelopes, hrows, ← h.envelopes]
  · intro row' hrow'
    obtain ⟨row, hrow, rfl⟩ := List.mem_map.mp hrow'
    rw [hrows] at hrow
    rcases List.mem_append.mp hrow with hold | hnew
    · have hid : row.eventId ≠ envelope.eventId := by
        have hmem : row.envelope ∈ events := h.envelopes ▸ List.mem_map_of_mem hold
        exact hfresh _ hmem
      simp only [List.lookup_cons, List.lookup_nil, beq_false_of_ne hid]
      exact h.published row hold
    · rw [List.mem_singleton.mp hnew]
      simp [OutboxRow.attempted, OutboxRow.eventId]
  · have hlength : events.length =
        (s.shared.streams envelope.eventType.streamFor).entries.length := by
      have hmap := congrArg List.length h.entries
      simpa using hmap.symm
    have hentries := h.entries
    rw [List.drop_zero] at hentries
    simp only [release, Pipeline.markRows, Function.update_self, StreamGroup.add,
      List.map_drop, List.map_append, List.map_cons, List.map_nil, hentries, hlength]
  · exact h.db
  · exact h.letters

/-- The first event is nowhere. -/
theorem Lagging.lost {events : List Envelope} {db : δ} {envelope : Envelope}
    {s : DeliverySystem δ} {stream : String}
    {dropped : Nat} (h : Lagging (envelope :: events) stream db (dropped + 1) s)
    (hstream : envelope.eventType.streamFor = stream)
    (hfresh : ∀ event ∈ events, event.eventId ≠ envelope.eventId)
    (hunknown : service.recorded db envelope.eventId = false) :
    envelope ∈ s.shared.outbox.envelopes ∧ ¬s.shared.Kept service envelope := by
  refine ⟨h.envelopes ▸ List.mem_cons_self, ?_⟩
  rintro (⟨row, hrow, _, hunpublished⟩ | ⟨id, hentry, _⟩ | hrecorded | ⟨item, hitem, _⟩)
  · have hpublished := h.published row hrow
    rw [hunpublished] at hpublished
    cases hpublished
  · have hmem : envelope.toWire ∈ events.map Envelope.toWire := by
      have hentries := h.entries
      rw [List.drop_succ_cons] at hentries
      have hkept : envelope.toWire ∈ (events.drop dropped).map Envelope.toWire := by
        rw [← hentries, ← hstream]
        exact List.mem_map.mpr ⟨_, hentry, rfl⟩
      exact List.map_subset _ (List.drop_subset dropped events) hkept
    obtain ⟨event, hevent, hwire⟩ := List.mem_map.mp hmem
    have hsame : event = envelope := Wire.body.inj hwire
    exact hfresh event hevent (congrArg Envelope.eventId hsame)
  · rw [h.db, hunknown] at hrecorded
    cases hrecorded
  · rw [h.letters] at hitem
    cases hitem

end Lagging

/-! ### A hundred thousand transfers -/

def requestedTransfer (n : Nat) : Wallet.Transfer where
  id := someUuid n
  idempotencyKey := (someUuid n).str
  fromUserId := 1
  toUserId := 2
  asset := "USDT"
  network := "BSC"
  amount := 1
  fromAddress := "0x52908400098527886e0f7030069857d2e4169ee7"
  toAddress := "0x8617e340b3d01fa5f11f306f4090fd50e238070d"
  status := .created
  txHash := none
  failureCode := none
  failureReason := none
  correlationId := none
  createdAt := 1000
  updatedAt := 1000
  settledAt := none
  amountPositive := by decide
  distinctParties := by decide

def requestOf (n : Nat) : Envelope :=
  Wallet.requestedEvent ⟨1000, none, "correlation", 0⟩ (requestedTransfer n) usdt

def quietTurn (evicted : Nat) : Turn := ⟨1, evicted, ⟨1000, none, "correlation", 0⟩, none⟩

/-- The blockchain service does not run; with the last transfer a whole node of
the stream, 100 entries, is evicted. -/
def laggingRun (n : Nat) : List (DeliveryAction Blockchain.service) :=
  (List.range n).flatMap (fun i => cycle Blockchain.service (requestOf i) (quietTurn 0)) ++
    cycle Blockchain.service (requestOf n) (quietTurn 100)

theorem requestOf_eventId (n : Nat) :
    (requestOf n).eventId = .uuid5 ("transfer.requested|" ++ (someUuid n).str) := by
  have hne : (someUuid n).str ≠ "" := by
    intro h
    have hlength := Uuid.str_length (someUuid n)
    rw [h] at hlength
    cases hlength
  simp [requestOf, Wallet.requestedEvent, newEvent, requestedTransfer, hne, EventType.name]

theorem requestOf_injective {n n' : Nat} (hn : n < 2 ^ 128) (hn' : n' < 2 ^ 128)
    (h : (requestOf n).eventId = (requestOf n').eventId) : n = n' := by
  rw [requestOf_eventId, requestOf_eventId, EventId.uuid5.injEq, String.append_right_inj] at h
  have hint : n % 2 ^ 128 = n' % 2 ^ 128 := congrArg Uuid.int (Uuid.str_injective h)
  rwa [Nat.mod_eq_of_lt hn, Nat.mod_eq_of_lt hn'] at hint

theorem requestOf_enqueued (outbox : Outbox) (n : Nat) :
    ∃ outbox', enqueueEvent outbox (requestOf n) = .ok outbox' := by
  have htype : ∃ stored, varchar 64 "transfer.requested" = .ok stored :=
    ⟨_, varchar_ok (by decide) (by decide)⟩
  have hcorrelation : ∃ stored, varchar 64 "correlation" = .ok stored :=
    ⟨_, varchar_ok (by decide) (by decide)⟩
  obtain ⟨_, htype⟩ := htype
  obtain ⟨_, hcorrelation⟩ := hcorrelation
  have hname : (requestOf n).eventType.name = "transfer.requested" := rfl
  have hid : (requestOf n).correlationId = "correlation" := rfl
  unfold enqueueEvent
  rw [hname, hid, htype, hcorrelation]
  exact ⟨_, rfl⟩

theorem requestOf_fresh {n : Nat} (hn : n < 2 ^ 128) :
    ∀ event ∈ (List.range n).map requestOf, event.eventId ≠ (requestOf n).eventId := by
  intro event hevent h
  obtain ⟨i, hi, rfl⟩ := List.mem_map.mp hevent
  have hlt := List.mem_range.mp hi
  exact absurd (requestOf_injective (hlt.trans hn) hn h) (Nat.ne_of_lt hlt)

theorem laggingRun_lags (n : Nat) (hn : n ≤ 2 ^ 128) :
    Lagging ((List.range n).map requestOf) "mcw:events:transfer.requested"
      Blockchain.Db.empty 0
      (runSteps (DeliverySystem.step Blockchain.service .standard)
        (DeliverySystem.init Blockchain.Db.empty)
        ((List.range n).flatMap fun i =>
          cycle Blockchain.service (requestOf i) (quietTurn 0))) := by
  induction n with
  | zero => exact ⟨rfl, rfl, rfl, by simp [DeliverySystem.init, Table.empty], rfl, rfl, rfl⟩
  | succ n ih =>
      have hbefore := ih (Nat.le_of_succ_le hn)
      have hcycle := hbefore.cycle Blockchain.service .standard (requestOf_fresh hn)
        (requestOf_enqueued _ n) (by decide) (quietTurn 0)
      have hnone : min (quietTurn 0).evicted (((List.range n).map requestOf).length + 1 -
          DeliverySettings.standard.maxLen) = 0 := Nat.zero_min _
      rw [hnone] at hcycle
      rw [List.range_succ, List.flatMap_append, List.map_append, runSteps_append,
        List.flatMap_singleton]
      exact hcycle

theorem laggingRun_drops {n : Nat} (hn : n < 2 ^ 128) (hmax : 100099 ≤ n) :
    Lagging ((List.range n).map requestOf ++ [requestOf n]) "mcw:events:transfer.requested"
      Blockchain.Db.empty 100
      (runSteps (DeliverySystem.step Blockchain.service .standard)
        (DeliverySystem.init Blockchain.Db.empty) (laggingRun n)) := by
  have hcycle := (laggingRun_lags n hn.le).cycle Blockchain.service .standard
    (requestOf_fresh hn) (requestOf_enqueued _ n) (by decide) (quietTurn 100)
  have hmaxLen : DeliverySettings.standard.maxLen = 100000 := rfl
  have hevicted : (quietTurn 100).evicted = 100 := rfl
  have hdropped : min (quietTurn 100).evicted
      (((List.range n).map requestOf).length + 1 - DeliverySettings.standard.maxLen) = 100 := by
    rw [List.length_map, List.length_range, hmaxLen, hevicted]
    omega
  rw [hdropped] at hcycle
  unfold laggingRun
  rw [runSteps_append]
  exact hcycle

theorem laggingRun_loses {n : Nat} (hn : n < 2 ^ 128) (hmax : 100099 ≤ n) :
    requestOf 0 ∈ (runSteps (DeliverySystem.step Blockchain.service .standard)
        (DeliverySystem.init Blockchain.Db.empty)
        (laggingRun n)).shared.outbox.envelopes ∧
      ¬(runSteps (DeliverySystem.step Blockchain.service .standard)
        (DeliverySystem.init Blockchain.Db.empty)
        (laggingRun n)).shared.Kept Blockchain.service (requestOf 0) := by
  have hlag := laggingRun_drops hn hmax
  cases n with
  | zero => cases hmax
  | succ m =>
      rw [List.range_succ_eq_map, List.map_cons, List.cons_append] at hlag
      apply hlag.lost rfl ?_ rfl
      intro event hevent h
      rcases List.mem_append.mp hevent with hold | hlast
      · obtain ⟨i, hi, rfl⟩ := List.mem_map.mp hold
        obtain ⟨j, hj, rfl⟩ := List.mem_map.mp hi
        have hlt := List.mem_range.mp hj
        have hzero := requestOf_injective (by omega) (by omega) h
        cases hzero
      · rw [List.mem_singleton.mp hlast] at h
        have hzero := requestOf_injective hn (by omega) h
        cases hzero

/-- With the default length of a stream: the first of 100 100 transfer requests is
evicted unread, with a whole node of the stream. -/
theorem unread_request_is_lost :
    requestOf 0 ∈ (runSteps (DeliverySystem.step Blockchain.service .standard)
        (DeliverySystem.init Blockchain.Db.empty)
        (laggingRun 100099)).shared.outbox.envelopes ∧
      ¬(runSteps (DeliverySystem.step Blockchain.service .standard)
        (DeliverySystem.init Blockchain.Db.empty)
        (laggingRun 100099)).shared.Kept Blockchain.service (requestOf 0) :=
  laggingRun_loses (by decide) (le_refl _)

/-- The request is published; the connection of the consumer breaks as its handler
commits. -/
def brokenDelivery : List (DeliveryAction Blockchain.service) :=
  cycle Blockchain.service (requestOf 0) (quietTurn 0) ++
    [.start (.consumer "consumer"),
      .advance (.consumer "consumer") .through (quietTurn 0),
      .advance (.consumer "consumer") .through (quietTurn 0),
      .advance (.consumer "consumer") (.lost (.connection "")) (quietTurn 0),
      .stop (.consumer "consumer")]

theorem broken_delivery_is_kept :
    (runSteps (DeliverySystem.step Blockchain.service .standard)
        (DeliverySystem.init Blockchain.Db.empty) brokenDelivery).shared.Kept
      Blockchain.service (requestOf 0) :=
  spared_runs_lose_nothing Blockchain.Db.empty (by decide +kernel) (requestOf 0)
    (by decide +kernel)

end DeliverySystem
end CryptoWallet
