import CryptoWallet.DeliveryRuns
import CryptoWallet.DepositSpelling

/-!
# Dead letters of events which were applied

A consumer dead letters a delivery when the last permitted dispatch raises, and when
the delivery comes after the last permitted one.  The acknowledgement counts as part
of the dispatch, and the delivery count also grows when a consumer stops between the
two.  A dead letter can therefore be the letter of an event which was applied.

It is not as long as nothing fails behind the commit of the last permitted delivery,
and nothing fails there for an event which is recorded already.
-/

namespace CryptoWallet

open Program

variable {δ : Type}

/-- A service whose dispatcher records the event it is given, and no other. -/
structure Dispatcher (δ : Type) extends Service δ where
  recordsOnly : ∀ {scope envelope db id}, recorded (dispatch scope envelope db).2 id = true →
    recorded db id = true ∨ id = envelope.eventId

def Wallet.dispatcher : Dispatcher Wallet.SoundDb where
  toService := Wallet.service
  recordsOnly {scope envelope db id} h := by
    have honly := Tx.commit_preserves
      (I := fun db' : Wallet.Db => db'.Recorded id → db.val.Recorded id ∨
        id = envelope.eventId) Or.inl
      ((Wallet.dispatch_records db.property scope envelope).mono
        (fun _ _ hrecords => (hrecords id).mp) fun _ h => h)
    exact (honly (of_decide_eq_true h)).imp decide_eq_true fun h => h

def Blockchain.dispatcher : Dispatcher Blockchain.Db where
  toService := Blockchain.service
  recordsOnly {scope envelope db id} h := by
    have honly := Tx.commit_preserves
      (I := fun db' : Blockchain.Db => db'.Recorded id → db.Recorded id ∨
        id = envelope.eventId) Or.inl
      ((Blockchain.dispatch_records scope envelope db).mono
        (fun _ _ hrecords => (hrecords id).mp) fun _ h => h)
    exact (honly (of_decide_eq_true h)).imp decide_eq_true fun h => h

namespace Pipeline

section

variable (service : Service δ) (relay : RelaySettings) (maxDelivery : Nat)

/-! ## One process and its last dispatch -/

/-- The delivery, when the command was its dispatch and the process saw it return. -/
def returnedBy : (command : PipelineCommand) → Except BusError command.Answer →
    Option DeliveredEvent
  | .dispatch delivered, .ok _ => some delivered
  | _, _ => none

/-- The shared state, and the delivery whose dispatch returned as the last command of
the process. -/
def processMachine : Machine PipelineCommand.Answer (Fate BusError × Turn) BusError
    (Pipeline δ × Option DeliveredEvent) where
  perform turn command s :=
    let (answer, w) := (machine service relay).faulty.perform turn command s.1
    (answer, w, returnedBy command answer)

/-- The handler raises, for a reason of its own or not. -/
def Raises (turn : Turn) (delivered : DeliveredEvent) (w : Pipeline δ) : Prop :=
  turn.raises.isSome = true ∨
    (service.dispatch turn.scope delivered.envelope w.db).1.isOk = false

/-- A delivery after the last permitted one is not of an event which is recorded.  At
the last permitted delivery no dispatch raises for a recorded event, no answer of a
dispatch which commits is lost, and no acknowledgement fails behind one which returned. -/
def Clean (turn : Fate BusError × Turn) (command : PipelineCommand)
    (s : Pipeline δ × Option DeliveredEvent) : Prop :=
  match command, turn.1 with
  | .dispatch delivered, .through => maxDelivery ≤ delivered.deliveryCount →
      Raises service turn.2 delivered s.1 →
        service.recorded s.1.db delivered.envelope.eventId = false
  | .dispatch delivered, .refused _ => maxDelivery ≤ delivered.deliveryCount →
      service.recorded s.1.db delivered.envelope.eventId = false
  | .dispatch delivered, .lost _ => maxDelivery ≤ delivered.deliveryCount →
      Raises service turn.2 delivered s.1 ∧
        service.recorded s.1.db delivered.envelope.eventId = false
  | .xack _ _, .refused _ | .xack _ _, .lost _ =>
      ∀ delivered ∈ s.2, delivered.deliveryCount < maxDelivery
  | .xaddDeadLetter item, _ => item.error = none →
      service.recorded s.1.db item.delivered.envelope.eventId = false
  | _, _ => True

/-- After a dispatch which raised, the dead letter is written while the event is not
recorded. -/
def Ready (command : PipelineCommand) (s : Pipeline δ × Option DeliveredEvent) : Prop :=
  match command with
  | .xaddDeadLetter item => item.error.isSome = true →
      service.recorded s.1.db item.delivered.envelope.eventId = false
  | _ => True

/-- The process writes no dead letter of a recorded event, whatever the others do in
between, when its own commands are clean. -/
abbrev Writes {α : Type}
    (post : Except BusError α → Pipeline δ × Option DeliveredEvent → Prop)
    (program : Program PipelineCommand.Answer BusError α)
    (s : Pipeline δ × Option DeliveredEvent) : Prop :=
  program.Heeds (processMachine service relay) (Clean service maxDelivery)
    (fun s s' => s'.2 = s.2) (Ready service) post s

end

variable {service : Service δ} {relay : RelaySettings} {maxDelivery : Nat}

/-- What a dispatch which does not commit leaves. -/
theorem dispatched_db {turn : Turn} {delivered : DeliveredEvent} {w : Pipeline δ}
    (h : Raises service turn delivered w) :
    (∃ e, (w.dispatched service turn.scope turn.raises delivered).1 = .error e) ∧
      (w.dispatched service turn.scope turn.raises delivered).2.db = w.db := by
  unfold dispatched
  cases hraises : turn.raises with
  | some failure => exact ⟨⟨_, rfl⟩, rfl⟩
  | none =>
      have herror : (service.dispatch turn.scope delivered.envelope w.db).1.isOk = false := by
        simpa [Raises, hraises] using h
      cases hdispatch : (service.dispatch turn.scope delivered.envelope w.db).1 with
      | ok _ => simp [hdispatch, Except.isOk, Except.toBool] at herror
      | error failure =>
          have hdb := service.rolledBack hdispatch
          exact ⟨⟨.handler failure, by simp [hdispatch, Except.mapError]⟩, hdb⟩

theorem dispatched_ok {turn : Turn} {delivered : DeliveredEvent} {w : Pipeline δ}
    (h : ¬Raises service turn delivered w) :
    (w.dispatched service turn.scope turn.raises delivered).1 = .ok () := by
  unfold Raises at h
  rw [not_or] at h
  obtain ⟨hraises, hok⟩ := h
  unfold dispatched
  cases hsome : turn.raises with
  | some failure => simp [hsome] at hraises
  | none =>
      cases hdispatch : (service.dispatch turn.scope delivered.envelope w.db).1 with
      | ok _ => simp [hdispatch, Except.mapError]
      | error failure => simp [hdispatch, Except.isOk, Except.toBool] at hok

/-! ## The programs -/

abbrev Harmless (service : Service δ) (relay : RelaySettings) (maxDelivery : Nat) {α : Type}
    (program : Program PipelineCommand.Answer BusError α) : Prop :=
  ∀ s, Writes service relay maxDelivery (fun _ _ => True) program s

theorem Harmless.bind {α β : Type} {program : Program PipelineCommand.Answer BusError α}
    {next : α → Program PipelineCommand.Answer BusError β}
    (h : Harmless service relay maxDelivery program)
    (hnext : ∀ a, Harmless service relay maxDelivery (next a)) :
    Harmless service relay maxDelivery (program >>= next) := by
  intro s
  apply Heeds.bind
  apply (h s).mono
  intro result s' _
  cases result with
  | ok a => exact hnext a s'
  | error e => trivial

theorem Harmless.ite {α : Type} {c : Prop} [Decidable c]
    {program program' : Program PipelineCommand.Answer BusError α}
    (h : Harmless service relay maxDelivery program)
    (h' : Harmless service relay maxDelivery program') :
    Harmless service relay maxDelivery (if c then program else program') := by
  split
  · exact h
  · exact h'

theorem harmless_pure {α : Type} (a : α) :
    Harmless service relay maxDelivery
      (pure a : Program PipelineCommand.Answer BusError α) :=
  fun _ => Heeds.pure trivial

theorem harmless_ofExcept {α : Type} (result : Except BusError α) :
    Harmless service relay maxDelivery (Program.ofExcept result) :=
  fun _ => Heeds.ofExcept trivial

theorem harmless_send (command : PipelineCommand)
    (hready : ∀ s, Ready service command s) :
    Harmless service relay maxDelivery (send command) :=
  fun s => Heeds.perform (hready s) fun _ _ _ _ _ => trivial

theorem harmless_retryable (stream : String) (counts : List (Nat × Nat))
    (claimed : List (Nat × Option Wire)) :
    Harmless service relay maxDelivery
      (RedisStreamsBus.retryable redisClient stream counts claimed) := by
  induction claimed with
  | nil => exact harmless_pure []
  | cons message rest ih =>
      obtain ⟨id, fields⟩ := message
      cases fields with
      | none => exact (harmless_send (.xack stream id) fun _ => trivial).bind fun _ => ih
      | some fields =>
          apply (harmless_ofExcept _).bind
          intro event
          exact ih.bind fun _ => harmless_pure _

theorem harmless_claimStreams (consumer : String) (minIdle count : Nat)
    (eventTypes : List EventType) :
    Harmless service relay maxDelivery
      (RedisStreamsBus.claimStreams redisClient consumer minIdle count eventTypes) := by
  induction eventTypes with
  | nil => exact harmless_pure []
  | cons eventType rest ih =>
      have hclaim : Harmless service relay maxDelivery
          (RedisStreamsBus.claimStream redisClient consumer minIdle count
            eventType.streamFor) := by
        apply (harmless_send (.xpendingRange _ _ _) fun _ => trivial).bind
        intro pending
        apply (harmless_pure _).ite
        apply (harmless_send (.xclaim _ _ _ _) fun _ => trivial).bind
        exact fun claimed => harmless_retryable _ pending claimed
      apply hclaim.bind
      intro events
      exact ih.bind fun _ => harmless_pure _

theorem harmless_readNew (eventTypes : List EventType) (consumer : String) (count : Nat) :
    Harmless service relay maxDelivery
      (RedisStreamsBus.readNew redisClient eventTypes consumer count) := by
  apply (harmless_pure _).ite
  apply (harmless_send (.xreadgroup _ _ _) fun _ => trivial).bind
  intro response
  exact (harmless_ofExcept _).bind fun _ => harmless_pure _

theorem harmless_relayRunOnce (settings : RelaySettings) (maxLen replica : Nat) :
    Harmless service relay maxDelivery (relayRunOnce settings maxLen replica) := by
  have hpublish : ∀ rows, Harmless service relay maxDelivery (publishRows maxLen rows) := by
    intro rows
    induction rows with
    | nil => exact harmless_pure []
    | cons row rest ih =>
        have hattempt : Harmless service relay maxDelivery
            (Program.tryCatch
              (do
                RedisStreamsBus.publish redisClient maxLen row.envelope
                return none)
              fun error => .ofExcept (publishFailed error)) := by
          intro s
          apply Heeds.tryCatch
          have hsend : Harmless service relay maxDelivery
              (do
                RedisStreamsBus.publish redisClient maxLen row.envelope
                return (none : Option String)) :=
            (harmless_send (.publish _ _ _) fun _ => trivial).bind fun _ => harmless_pure none
          apply (hsend s).mono
          intro result s' _
          cases result with
          | ok a => trivial
          | error e => exact harmless_ofExcept (publishFailed e) s'
        apply hattempt.bind
        intro publishError
        exact ih.bind fun _ => harmless_pure _
  apply (harmless_send (.claimRows _ _) fun _ => trivial).bind
  intro rows
  apply (harmless_pure _).ite
  apply (hpublish rows).bind
  intro attempts
  exact (harmless_send (.markRows _ _) fun _ => trivial).bind fun _ => harmless_pure _

theorem writes_send (command : PipelineCommand) {s : Pipeline δ × Option DeliveredEvent}
    {post : Except BusError command.Answer → Pipeline δ × Option DeliveredEvent → Prop}
    (hready : Ready service command s)
    (h : ∀ s', s'.2 = s.2 → ∀ turn, Clean service maxDelivery turn command s' →
      post ((processMachine service relay).perform turn command s').1
        ((processMachine service relay).perform turn command s').2) :
    Writes service relay maxDelivery post (send command) s :=
  Heeds.perform hready fun s' hothers _ => h s' hothers

section Consumer

variable (settings : ConsumerSettings) (eventTypes : List EventType) (consumer : String)

/-- After the last permitted delivery, and after a failed dispatch of an event which is
not recorded. -/
theorem writes_reject {delivered : DeliveredEvent} {error : Option BusError}
    {s : Pipeline δ × Option DeliveredEvent}
    (hready : Ready service (.xaddDeadLetter ⟨delivered, error⟩) s) :
    Writes service relay maxDelivery (fun _ _ => True)
      ((consumerRuntime settings eventTypes consumer).reject delivered error) s := by
  have hrest : Harmless service relay maxDelivery
      (do
        send (.recordDeadLetter ⟨delivered, error⟩)
        send (.xack delivered.stream delivered.messageId)) :=
    (harmless_send (.recordDeadLetter _) fun _ => trivial).bind fun _ =>
      harmless_send (.xack _ _) fun _ => trivial
  apply Heeds.bind
  apply Heeds.perform hready
  intro s' _ _ turn _
  split
  · exact hrest _
  · trivial

/-- What the process knows after a clean dispatch. -/
def AfterDispatch (service : Service δ) (maxDelivery : Nat) (delivered : DeliveredEvent)
    (result : Except BusError Unit) (s : Pipeline δ × Option DeliveredEvent) : Prop :=
  match result with
  | .ok () => s.2 = some delivered
  | .error _ => maxDelivery ≤ delivered.deliveryCount →
      service.recorded s.1.db delivered.envelope.eventId = false

theorem afterDispatch (relay : RelaySettings) {delivered : DeliveredEvent}
    {turn : Fate BusError × Turn} {s : Pipeline δ × Option DeliveredEvent}
    (h : Clean service maxDelivery turn (.dispatch delivered) s) :
    AfterDispatch service maxDelivery delivered
      ((processMachine service relay).perform turn (.dispatch delivered) s).1
      ((processMachine service relay).perform turn (.dispatch delivered) s).2 := by
  obtain ⟨fate, turn⟩ := turn
  have htick : Raises service turn delivered s.1 =
      Raises service turn delivered { s.1 with clock := s.1.clock + turn.elapsed } := rfl
  cases fate with
  | refused e => exact h
  | lost e =>
      intro hlimit
      obtain ⟨hraises, hfresh⟩ := h hlimit
      obtain ⟨_, hdb⟩ := dispatched_db (htick ▸ hraises)
      change service.recorded (dispatched service turn.scope turn.raises delivered
        { s.1 with clock := s.1.clock + turn.elapsed }).2.db _ = false
      rw [hdb]
      exact hfresh
  | through =>
      by_cases hraises : Raises service turn delivered s.1
      · obtain ⟨⟨e, herror⟩, hdb⟩ := dispatched_db (htick ▸ hraises)
        change AfterDispatch service maxDelivery delivered (dispatched service turn.scope
          turn.raises delivered { s.1 with clock := s.1.clock + turn.elapsed }).1 _
        rw [herror]
        intro hlimit
        change service.recorded (dispatched service turn.scope turn.raises delivered
          { s.1 with clock := s.1.clock + turn.elapsed }).2.db _ = false
        rw [hdb]
        exact h hlimit hraises
      · have hok := dispatched_ok (htick ▸ hraises)
        change AfterDispatch service maxDelivery delivered (dispatched service turn.scope
          turn.raises delivered { s.1 with clock := s.1.clock + turn.elapsed }).1
            (_, returnedBy (.dispatch delivered) (dispatched service turn.scope turn.raises
              delivered { s.1 with clock := s.1.clock + turn.elapsed }).1)
        rw [hok]
        rfl

theorem harmless_handle (delivered : DeliveredEvent) :
    Harmless service relay settings.maxDelivery
      ((consumerRuntime settings eventTypes consumer).handle delivered) := by
  intro s
  have hack : (consumerRuntime settings eventTypes consumer).bus.ack delivered.stream
      delivered.messageId = send (.xack delivered.stream delivered.messageId) := rfl
  unfold ConsumerRuntime.handle
  split
  · exact writes_reject settings eventTypes consumer fun h => nomatch h
  · apply Heeds.tryCatch
    apply Heeds.bind
    apply Heeds.perform trivial
    intro s₁ _ _ turn hturn
    have hafter := afterDispatch relay hturn
    split
    next hreturned =>
      rw [hreturned] at hafter
      rw [hack]
      apply writes_send (.xack delivered.stream delivered.messageId) trivial
      intro s₂ hlast turn' hturn'
      obtain ⟨fate, turn'⟩ := turn'
      -- only before the last permitted delivery the acknowledgement may fail
      have hbefore : fate ≠ .through → delivered.deliveryCount < settings.maxDelivery := by
        intro hfate
        have hmem : delivered ∈ s₂.2 := hlast.trans hafter
        cases fate with
        | through => exact absurd rfl hfate
        | refused e => exact hturn' delivered hmem
        | lost e => exact hturn' delivered hmem
      split
      next => trivial
      next e herror =>
        have hfate : fate ≠ .through := by
          rintro rfl
          cases herror
        have hlimit : ¬(settings.maxDelivery ≤ delivered.deliveryCount) := by
          have hlt := hbefore hfate
          omega
        rw [show (consumerRuntime settings eventTypes consumer).maxDelivery =
          settings.maxDelivery from rfl, if_neg hlimit]
        exact harmless_pure () _
    next e herror =>
      rw [herror] at hafter
      dsimp only
      split
      next hlimit => exact writes_reject settings eventTypes consumer fun _ => hafter hlimit
      next => exact harmless_pure () _

theorem harmless_handleAll (batch : List DeliveredEvent) :
    Harmless service relay settings.maxDelivery
      ((consumerRuntime settings eventTypes consumer).handleAll batch) := by
  induction batch with
  | nil => exact harmless_pure 0
  | cons delivered rest ih =>
      apply Harmless.bind (harmless_handle settings eventTypes consumer delivered)
      intro _
      exact Harmless.bind ih fun _ => harmless_pure _

theorem harmless_runOnce :
    Harmless service relay settings.maxDelivery
      (consumerRuntime settings eventTypes consumer).runOnce := by
  unfold ConsumerRuntime.runOnce
  apply Harmless.bind
  · unfold ConsumerRuntime.collect
    apply Harmless.bind
    · exact Harmless.bind (harmless_claimStreams _ _ _ _) fun _ => harmless_pure _
    intro stale
    exact Harmless.bind (harmless_readNew _ _ _) fun _ => harmless_pure _
  · exact harmless_handleAll settings eventTypes consumer

end Consumer

/-! ## What a command writes -/

/-- The dispatch commits, whether or not the process hears of it. -/
def Commits (service : Service δ) (turn : Fate BusError × Turn) (delivered : DeliveredEvent)
    (w : Pipeline δ) : Prop :=
  (∀ e, turn.1 ≠ .refused e) ∧ ¬Raises service turn.2 delivered w

theorem readGroups_letters (consumer : String) (now count : Nat) (streams : List String)
    {w : Pipeline δ} {item : DeadLetter} {recorded : Bool}
    (h : .deadLettered item recorded ∈ (readGroups consumer now count streams w).2.journal) :
    .deadLettered item recorded ∈ w.journal := by
  induction streams generalizing w with
  | nil => exact h
  | cons stream rest ih =>
      rcases List.mem_append.mp (ih h) with hold | hnew
      · exact hold
      · obtain ⟨message, _, heq⟩ := List.mem_map.mp hnew
        cases heq

theorem readGroups_db (consumer : String) (now count : Nat) (streams : List String)
    (w : Pipeline δ) : (readGroups consumer now count streams w).2.db = w.db := by
  induction streams generalizing w with
  | nil => rfl
  | cons stream rest ih => exact ih _

/-- Dead letters are written by one command only. -/
theorem carryOut_letters {turn : Turn} {command : PipelineCommand} {w : Pipeline δ}
    {item : DeadLetter} {recorded : Bool}
    (h : .deadLettered item recorded ∈ (carryOut service relay turn command w).2.journal) :
    .deadLettered item recorded ∈ w.journal ∨
      command = .xaddDeadLetter item ∧
        recorded = service.recorded w.db item.delivered.envelope.eventId := by
  cases command with
  | xaddDeadLetter letter =>
      rcases List.mem_append.mp h with hold | hnew
      · exact Or.inl hold
      · rw [List.mem_singleton, Happening.deadLettered.injEq] at hnew
        obtain ⟨rfl, rfl⟩ := hnew
        exact Or.inr ⟨rfl, rfl⟩
  | xclaim stream consumer minIdle ids =>
      rcases List.mem_append.mp h with hold | hnew
      · exact Or.inl hold
      · obtain ⟨message, _, heq⟩ := List.mem_map.mp hnew
        cases heq
  | xreadgroup consumer streams count => exact Or.inl (readGroups_letters _ _ _ _ h)
  | dispatch delivered =>
      left
      simp only [carryOut, dispatched] at h
      cases hraises : turn.raises <;>
        · simp only [hraises, noted, List.mem_append, List.mem_singleton, reduceCtorEq,
            or_false] at h
          exact h
  | recordDeadLetter letter =>
      left
      simp only [carryOut, recordedDeadLetter] at h
      cases hrecord : recordDeadLetter letter <;>
        · simp only [hrecord] at h
          exact h
  | claimRows replica limit => exact Or.inl h
  | publish stream fields maxLen => exact Or.inl h
  | markRows replica attempts => exact Or.inl h
  | xpendingRange stream count idle => exact Or.inl h
  | xack stream id => exact Or.inl h

/-- The database changes with a dispatch only. -/
theorem carryOut_db {turn : Turn} {command : PipelineCommand} {w : Pipeline δ}
    (hcommand : ∀ delivered, command ≠ .dispatch delivered) :
    (carryOut service relay turn command w).2.db = w.db := by
  cases command with
  | dispatch delivered => exact absurd rfl (hcommand delivered)
  | xreadgroup consumer streams count => exact readGroups_db consumer _ count streams w
  | recordDeadLetter letter =>
      simp only [carryOut, recordedDeadLetter]
      cases recordDeadLetter letter <;> rfl
  | claimRows replica limit => rfl
  | publish stream fields maxLen => rfl
  | markRows replica attempts => rfl
  | xpendingRange stream count idle => rfl
  | xclaim stream consumer minIdle ids => rfl
  | xack stream id => rfl
  | xaddDeadLetter item => rfl

/-- A command which may fail writes no more than that. -/
theorem perform_letters {turn : Fate BusError × Turn} {command : PipelineCommand}
    {w : Pipeline δ} {item : DeadLetter} {recorded : Bool}
    (h : .deadLettered item recorded ∈
      ((machine service relay).faulty.perform turn command w).2.journal) :
    .deadLettered item recorded ∈ w.journal ∨
      command = .xaddDeadLetter item ∧
        recorded = service.recorded w.db item.delivered.envelope.eventId := by
  obtain ⟨fate, turn⟩ := turn
  have hcarried : .deadLettered item recorded ∈ (carryOut service relay turn command
      { w with clock := w.clock + turn.elapsed }).2.journal →
      .deadLettered item recorded ∈ w.journal ∨ command = .xaddDeadLetter item ∧
        recorded = service.recorded w.db item.delivered.envelope.eventId := carryOut_letters
  cases fate with
  | refused e => exact Or.inl h
  | through => exact hcarried h
  | lost e => exact hcarried h

/-- An event is recorded by the commit of its own dispatch only. -/
theorem perform_unrecorded {dispatcher : Dispatcher δ} {turn : Fate BusError × Turn}
    {command : PipelineCommand} {w : Pipeline δ} {id : EventId}
    (h : dispatcher.recorded w.db id = false)
    (hcommits : ∀ delivered, command = .dispatch delivered →
      Commits dispatcher.toService turn delivered w → id ≠ delivered.envelope.eventId) :
    dispatcher.recorded
      ((machine dispatcher.toService relay).faulty.perform turn command w).2.db id = false := by
  obtain ⟨fate, turn⟩ := turn
  have hcarried : (∀ e, fate ≠ .refused e) → dispatcher.recorded
      (carryOut dispatcher.toService relay turn command
        { w with clock := w.clock + turn.elapsed }).2.db id = false := by
    intro hfate
    by_cases hcommand : ∃ delivered, command = .dispatch delivered
    · obtain ⟨delivered, rfl⟩ := hcommand
      change dispatcher.recorded (dispatched dispatcher.toService turn.scope turn.raises delivered
        { w with clock := w.clock + turn.elapsed }).2.db id = false
      by_cases hraises : Raises dispatcher.toService turn delivered
          { w with clock := w.clock + turn.elapsed }
      · rw [(dispatched_db hraises).2]
        exact h
      · have hother := hcommits delivered rfl ⟨hfate, hraises⟩
        have hnone : turn.raises = none := by
          have hsome := (not_or.mp hraises).1
          simpa using hsome
        simp only [dispatched, hnone]
        rw [Bool.eq_false_iff]
        intro hrecorded
        rcases dispatcher.recordsOnly hrecorded with hbefore | hid
        · rw [h] at hbefore
          cases hbefore
        · exact hother hid
    · rw [carryOut_db fun delivered heq => hcommand ⟨delivered, heq⟩]
      exact h
  cases fate with
  | refused e => exact h
  | through =>
      apply hcarried
      intro e heq
      cases heq
  | lost lostTo =>
      apply hcarried
      intro e heq
      cases heq

end Pipeline

/-! ## All processes -/

/-- The system, and for each process the delivery whose dispatch returned as its last
command.  Nothing reads the latter. -/
structure Observed (δ : Type) where
  system : DeliverySystem δ
  returned : ProcessId → Option DeliveredEvent

namespace Observed

section

variable (dispatcher : Dispatcher δ) (settings : DeliverySettings)

def init (db : δ) : Observed δ := ⟨.init db, fun _ => none⟩

def step (action : DeliveryAction dispatcher.toService) (s : Observed δ) : Observed δ where
  system := s.system.step dispatcher.toService settings action
  returned :=
    match action with
    | .advance id fate turn =>
      match s.system.processes id with
      | some (.call command _) =>
        Function.update s.returned id (Pipeline.returnedBy command
          ((Pipeline.machine dispatcher.toService settings.relay).faulty.perform (fate, turn)
            command s.system.shared).1)
      | _ => s.returned
    | _ => s.returned

/-- Every command is clean for its process, and no dispatch commits an event between the
failure of its last permitted dispatch and the dead letter.  Other transactions record
no events. -/
def Careful (s : Observed δ) : DeliveryAction dispatcher.toService → Prop
  | .advance id fate turn => ∀ command ∈ s.system.command? id,
      Pipeline.Clean dispatcher.toService settings.consumer.maxDelivery (fate, turn) command
          (s.system.shared, s.returned id) ∧
        ∀ delivered, command = .dispatch delivered →
          Pipeline.Commits dispatcher.toService (fate, turn) delivered s.system.shared →
            ∀ other item, s.system.command? other = some (.xaddDeadLetter item) →
              item.delivered.envelope.eventId ≠ delivered.envelope.eventId
  | .other tx => ∀ id, dispatcher.recorded (tx.val s.system.shared.db) id = true →
      dispatcher.recorded s.system.shared.db id = true
  | _ => True

/-- No dead letter was one of an event recorded at its time, and no process is about to
write one. -/
structure Inv (s : Observed δ) : Prop where
  letters : ∀ item recorded, .deadLettered item recorded ∈ s.system.shared.journal →
    recorded = false
  processes : ∀ id program, s.system.processes id = some program →
    Pipeline.Writes dispatcher.toService settings.relay settings.consumer.maxDelivery
      (fun _ _ => True) program (s.system.shared, s.returned id)

end

variable {dispatcher : Dispatcher δ} {settings : DeliverySettings} {s : Observed δ}

theorem Inv.init (db : δ) : Inv dispatcher settings (init db) where
  letters := by
    intro item recorded h
    cases h
  processes := by
    intro id program h
    cases h

/-- The processes go on when what they are ready for stays unrecorded. -/
theorem Inv.later (h : Inv dispatcher settings s) {id : ProcessId}
    {program : Program PipelineCommand.Answer BusError Nat}
    (hprogram : s.system.processes id = some program) {w : Pipeline δ}
    (hunrecorded : ∀ item, s.system.command? id = some (.xaddDeadLetter item) →
      dispatcher.recorded s.system.shared.db item.delivered.envelope.eventId = false →
        dispatcher.recorded w.db item.delivered.envelope.eventId = false) :
    Pipeline.Writes dispatcher.toService settings.relay settings.consumer.maxDelivery
      (fun _ _ => True) program (w, s.returned id) := by
  have hwrites := h.processes id program hprogram
  refine Heeds.later (fun h h' => h'.trans h) hwrites rfl ?_
  rintro command next rfl
  have hready := hwrites.1
  cases command with
  | xaddDeadLetter item =>
      intro herror
      apply hunrecorded item _ (hready herror)
      simp only [DeliverySystem.command?, hprogram]
  | _ => trivial

theorem programOf_writes (id : ProcessId) :
    Pipeline.Harmless dispatcher.toService settings.relay settings.consumer.maxDelivery
      (DeliverySystem.programOf dispatcher.toService settings id) := by
  cases id with
  | relay replica =>
      exact Pipeline.harmless_relayRunOnce settings.relay settings.maxLen replica
  | consumer name =>
      exact Pipeline.harmless_runOnce settings.consumer dispatcher.eventTypes name

/-- A step which carries out no command. -/
theorem Inv.idle (h : Inv dispatcher settings s) {system : DeliverySystem δ}
    (hjournal : system.shared.journal = s.system.shared.journal)
    (hunrecorded : ∀ id, dispatcher.recorded s.system.shared.db id = false →
      dispatcher.recorded system.shared.db id = false)
    (hprocesses : ∀ id program, system.processes id = some program →
      s.system.processes id = some program ∨
        ∃ new, program = DeliverySystem.programOf dispatcher.toService settings new) :
    Inv dispatcher settings ⟨system, s.returned⟩ where
  letters := by
    intro item recorded hmem
    exact h.letters item recorded (hjournal ▸ hmem)
  processes := by
    intro id program hprogram
    rcases hprocesses id program hprogram with hold | ⟨new, rfl⟩
    · exact h.later hold fun item _ => hunrecorded _
    · exact programOf_writes new _

theorem Inv.step (h : Inv dispatcher settings s) (action : DeliveryAction dispatcher.toService)
    (hcareful : Careful dispatcher settings s action) :
    Inv dispatcher settings (Observed.step dispatcher settings action s) := by
  cases action with
  | enqueue envelope =>
      simp only [Observed.step, DeliverySystem.step]
      cases enqueueEvent s.system.shared.outbox envelope with
      | error e => exact h
      | ok outbox => exact h.idle rfl (fun _ h => h) fun _ _ hprogram => Or.inl hprogram
  | other tx =>
      refine h.idle rfl ?_ fun _ _ hprogram => Or.inl hprogram
      intro id hid
      rw [Bool.eq_false_iff] at hid ⊢
      exact fun hrecorded => hid (hcareful id hrecorded)
  | start id =>
      simp only [Observed.step, DeliverySystem.step]
      cases hid : s.system.processes id with
      | some program => exact h
      | none =>
          refine h.idle rfl (fun _ h => h) ?_
          intro other program hprogram
          apply (DeliverySystem.setProcess_cases hprogram).imp (fun h => h)
          intro hnew
          exact ⟨id, (Option.some.inj hnew).symm⟩
  | stop id =>
      have hrelease : (DeliverySystem.release id s.system.shared).journal =
            s.system.shared.journal ∧
          (DeliverySystem.release id s.system.shared).db = s.system.shared.db := by
        cases id <;> exact ⟨rfl, rfl⟩
      refine h.idle hrelease.1 ?_ ?_
      · intro event hevent
        change dispatcher.recorded (DeliverySystem.release id s.system.shared).db event = false
        rw [hrelease.2]
        exact hevent
      · intro other program hprogram
        apply (DeliverySystem.setProcess_cases hprogram).imp (fun h => h)
        intro hnew
        cases hnew
  | advance id fate turn =>
      cases hid : s.system.processes id with
      | none =>
          simp only [Observed.step, DeliverySystem.step, hid]
          exact h
      | some program =>
          cases program with
          | done result =>
              simp only [Observed.step, DeliverySystem.step, hid]
              exact h
          | call command next =>
              have hcommand : s.system.command? id = some command := by
                simp only [DeliverySystem.command?, hid]
              obtain ⟨hclean, hnobody⟩ := hcareful command hcommand
              have hwrites := h.processes id _ hid
              have hnext := hwrites.2 (s.system.shared, s.returned id) rfl hwrites.1
                (fate, turn) hclean
              simp only [Observed.step, DeliverySystem.step, hid]
              constructor
              · intro item recorded hmem
                rcases Pipeline.perform_letters hmem with hold | ⟨rfl, rfl⟩
                · exact h.letters item recorded hold
                · cases herror : item.error with
                  | none => exact hclean herror
                  | some error => exact hwrites.1 (by rw [herror]; rfl)
              · intro other program hprogram
                by_cases hother : other = id
                · subst hother
                  rw [DeliverySystem.setProcess_self, Option.some.injEq] at hprogram
                  dsimp only
                  rw [Function.update_self, ← hprogram]
                  exact hnext
                · dsimp only
                  rw [Function.update_of_ne hother]
                  have hold : s.system.processes other = some program := by
                    simpa [DeliverySystem.setProcess, Function.update_of_ne hother]
                      using hprogram
                  apply h.later hold
                  intro item hitem hunrecorded
                  apply Pipeline.perform_unrecorded hunrecorded
                  intro delivered hdispatch hcommits
                  exact hnobody delivered hdispatch hcommits other item hitem

/-- In every run of relays, consumers and both services whose steps are careful, no dead
letter is one of an event which the consuming service has recorded. -/
theorem dead_letters_are_unrecorded (db : δ)
    {actions : List (DeliveryAction dispatcher.toService)}
    (hcareful : AdmittedRun (step dispatcher settings) (Careful dispatcher settings)
      (.init db) actions) :
    ∀ item recorded, .deadLettered item recorded ∈
      (runSteps (step dispatcher settings) (.init db) actions).system.shared.journal →
        recorded = false := by
  have hinv := AdmittedRun.invariant (I := Inv dispatcher settings)
    (fun _ action h hadmitted => h.step action hadmitted) (Inv.init db) hcareful
  exact hinv.letters

/-! ### A deposit which was credited -/

instance (service : Service δ) (turn : Turn) (delivered : DeliveredEvent) (w : Pipeline δ) :
    Decidable (Pipeline.Raises service turn delivered w) :=
  inferInstanceAs (Decidable (_ = true ∨ _ = false))

instance (service : Service δ) (maxDelivery : Nat) (turn : Fate BusError × Turn)
    (command : PipelineCommand) (s : Pipeline δ × Option DeliveredEvent) :
    Decidable (Pipeline.Clean service maxDelivery turn command s) :=
  match command, turn with
  | .dispatch _, (.through, _) => inferInstanceAs (Decidable (_ → Pipeline.Raises .. → _ = false))
  | .dispatch _, (.refused _, _) => inferInstanceAs (Decidable (_ → _ = false))
  | .dispatch _, (.lost _, _) =>
    inferInstanceAs (Decidable (_ → Pipeline.Raises .. ∧ _ = false))
  | .xack _ _, (.refused _, _) | .xack _ _, (.lost _, _) =>
    inferInstanceAs (Decidable (∀ delivered ∈ _, _ < maxDelivery))
  | .xaddDeadLetter _, (.through, _) | .xaddDeadLetter _, (.refused _, _)
  | .xaddDeadLetter _, (.lost _, _) => inferInstanceAs (Decidable (_ = none → _ = false))
  | .xack _ _, (.through, _) | .claimRows .., _ | .publish .., _ | .markRows .., _
  | .xpendingRange .., _ | .xclaim .., _ | .xreadgroup .., _ | .recordDeadLetter _, _ =>
    .isTrue trivial

/-- Careful for a reason which is local: every dispatch raises. -/
def Failing (dispatcher : Dispatcher δ) (settings : DeliverySettings) (s : Observed δ) :
    DeliveryAction dispatcher.toService → Prop
  | .advance id fate turn => ∀ command ∈ s.system.command? id,
      Pipeline.Clean dispatcher.toService settings.consumer.maxDelivery (fate, turn) command
        (s.system.shared, s.returned id) ∧ turn.raises.isSome = true
  | .other _ => False
  | _ => True

instance (s : Observed δ) (action : DeliveryAction dispatcher.toService) :
    Decidable (Failing dispatcher settings s action) :=
  match action with
  | .enqueue _ | .start _ | .stop _ => .isTrue trivial
  | .other _ => .isFalse fun h => h
  | .advance _ _ _ => inferInstanceAs (Decidable (∀ command ∈ _, _ ∧ _ = true))

theorem Failing.careful {action : DeliveryAction dispatcher.toService}
    (h : Failing dispatcher settings s action) : Careful dispatcher settings s action := by
  cases action with
  | advance id fate turn =>
      intro command hcommand
      obtain ⟨hclean, hraises⟩ := h command hcommand
      refine ⟨hclean, ?_⟩
      intro delivered _ hcommits
      exact absurd (Or.inl hraises) hcommits.2
  | other tx => exact h.elim
  | enqueue envelope => trivial
  | start id => trivial
  | stop id => trivial

def creditedDb : Wallet.SoundDb :=
  ⟨registeredDb, by unfold registeredDb; exact Wallet.run_sound _ _⟩

/-- The event of a deposit to a registered address. -/
def creditEvent : Option Envelope :=
  (spelledEvent Blockchain.custodyAddress.address.val).toOption.map fun event =>
    Blockchain.confirmedEvent Wallet.spentScope event.1 event.2

def pollWith (raises : Option Failure) (fates : List (Fate BusError)) :
    List (DeliveryAction Wallet.dispatcher.toService) :=
  .start (.consumer "consumer") ::
    (fates.map fun fate =>
      .advance (.consumer "consumer") fate ⟨30000, 0, Wallet.spentScope, raises⟩) ++
    [.stop (.consumer "consumer")]

/-- The handler raises at its first five deliveries.  At the sixth it returns, and the
connection breaks before the acknowledgement. -/
def unacknowledged (envelope : Envelope) : List (DeliveryAction Wallet.dispatcher.toService) :=
  DeliverySystem.cycle Wallet.dispatcher.toService envelope (DeliverySystem.quietTurn 0) ++
    (List.replicate 5 (pollWith (some .valueError) (List.replicate 9 .through))).flatten ++
    pollWith none (List.replicate 9 .through ++ [.refused (.connection ""), .through])

/-- The handler raises at all deliveries. -/
def neverHandled (envelope : Envelope) : List (DeliveryAction Wallet.dispatcher.toService) :=
  DeliverySystem.cycle Wallet.dispatcher.toService envelope
      { DeliverySystem.quietTurn 0 with raises := some .valueError } ++
    (List.replicate 6 (pollWith (some .valueError) (List.replicate 12 .through))).flatten

/-- With the default settings, from the wallet of `creditedDb`. -/
def afterRun (actions : List (DeliveryAction Wallet.dispatcher.toService)) :
    Observed Wallet.SoundDb :=
  runSteps (step Wallet.dispatcher .standard) (.init creditedDb) actions

def letters (s : Observed δ) : List (DeadLetter × Bool) :=
  s.system.shared.journal.filterMap fun
    | .deadLettered item recorded => some (item, recorded)
    | _ => none

theorem mem_letters {s : Observed δ} {item : DeadLetter} {recorded : Bool}
    (h : (item, recorded) ∈ letters s) :
    .deadLettered item recorded ∈ s.system.shared.journal := by
  obtain ⟨happening, hmem, heq⟩ := List.mem_filterMap.mp h
  cases happening with
  | deadLettered item' recorded' =>
      cases heq
      exact hmem
  | handedOut stream id fields => cases heq
  | dispatched delivered result => cases heq

theorem polled_runs :
    (∃ envelope ∈ creditEvent, ∃ letter ∈ letters (afterRun (unacknowledged envelope)),
      letter.2 = true ∧ letter.1.delivered.envelope = envelope ∧
        ∃ e ∈ (afterRun (unacknowledged envelope)).system.shared.db.val.ledger.rows,
          e.amount = 500) ∧
    ∃ envelope ∈ creditEvent,
      AdmittedRun (step Wallet.dispatcher .standard) (Failing Wallet.dispatcher .standard)
        (.init creditedDb) (neverHandled envelope) ∧
      ∃ letter ∈ letters (afterRun (neverHandled envelope)), letter.2 = false := by
  decide +kernel

/-- The deposit is credited, and its event is dead lettered. -/
theorem credited_event_is_dead_lettered :
    ∃ envelope ∈ creditEvent, ∃ item : DeadLetter, item.delivered.envelope = envelope ∧
      .deadLettered item true ∈
        (afterRun (unacknowledged envelope)).system.shared.journal ∧
      ∃ e ∈ (afterRun (unacknowledged envelope)).system.shared.db.val.ledger.rows,
        e.amount = 500 := by
  obtain ⟨⟨envelope, henvelope, letter, hletter, htrue, hsame, hcredited⟩, _⟩ := polled_runs
  obtain ⟨item, recorded⟩ := letter
  cases htrue
  exact ⟨envelope, henvelope, item, hsame, mem_letters hletter, hcredited⟩

/-- The dead letter of an event which was never handled is not one of a recorded event. -/
theorem unhandled_event_is_unrecorded :
    ∃ envelope ∈ creditEvent,
      (∃ item, .deadLettered item false ∈
        (afterRun (neverHandled envelope)).system.shared.journal) ∧
      ∀ item recorded, .deadLettered item recorded ∈
        (afterRun (neverHandled envelope)).system.shared.journal → recorded = false := by
  obtain ⟨_, envelope, henvelope, hfailing, letter, hletter, hfalse⟩ := polled_runs
  obtain ⟨item, recorded⟩ := letter
  cases hfalse
  have hcareful := hfailing.mono fun _ _ h => Failing.careful h
  exact ⟨envelope, henvelope, ⟨item, mem_letters hletter⟩,
    dead_letters_are_unrecorded creditedDb hcareful⟩

end Observed
end CryptoWallet
